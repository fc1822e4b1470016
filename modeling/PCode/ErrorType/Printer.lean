import PCode.ErrorType.Expansion
import PCode.ErrorType.Source
/-!
The tokens of an expansion: the display implementation, the error implementation, the conversions.
-/

namespace PCode.ErrorType

def braced (ts : List Token) : List Token := .mark '\x7b' :: ts ++ [.mark '\x7d']

def parenthesized (ts : List Token) : List Token := .mark '(' :: ts ++ [.mark ')']

def pathTokens (variant : Option String) : List Token :=
  match variant with
  | none => [.word "Self"]
  | some name => [.word "Self", .mark ':', .mark ':', .word name]

def errorReference : List Token :=
  .mark '&' :: parenthesized (Token.ofSource "dyn ::std::error::Error +" ++ Token.lifetime "static")

/-- A named pattern leaves the fields it does not name to a rest pattern. -/
def Pattern.tokens : Pattern → List Token
  | unit => []
  | tuple slots =>
    parenthesized (Token.commaSeparated (slots.map fun slot => [.word (slot.getD "_")]))
  | named fields =>
    braced (fields.flatMap (fun (name, binding) =>
      .word name :: (match binding with
        | some other => [.mark ':', .word other]
        | none => []) ++ [.mark ',']) ++ [.mark '.', .mark '.'])

def arrow : List Token := [.mark '=', .mark '>']

def DisplayArm.tokens (a : DisplayArm) : List Token :=
  let arguments := a.arguments.map fun name => [.word name, .mark '=', .word name]
  pathTokens a.variant ++ a.pattern.tokens ++ arrow ++ [.word "write", .mark '!'] ++
    parenthesized (Token.commaSeparated ([.word "f"] :: [.text a.template] :: arguments)) ++ [.mark ',']

def SourceArm.tokens (a : SourceArm) : List Token :=
  pathTokens a.variant ++ a.pattern.tokens ++ arrow ++
    Token.ofSource "::std::option::Option::Some" ++
    parenthesized (.word binding :: .word "as" :: errorReference) ++ [.mark ',']

/-- The constructor applied to the underlying error. -/
def Conversion.body {τ : Type} (c : Conversion τ) : List Token :=
  pathTokens c.variant ++
    match c.field with
    | some name => braced [.word name, .mark ':', .word "source"]
    | none => parenthesized [.word "source"]

namespace Description

variable {γ τ : Type} (lib : Library γ τ) (d : Description γ τ)

def implementation (trait content : List Token) : List Token :=
  let ⟨parameters, arguments, whereClause⟩ := lib.split d.generics
  .word "impl" :: parameters ++ trait ++ [.word "for", .word d.name] ++ arguments ++ whereClause ++
    braced content

def matchSelf (arms : List Token) : List Token :=
  braced (.word "match" :: .word "self" :: braced arms)

def displayImplementation (arms : List DisplayArm) : List Token :=
  d.implementation lib (Token.ofSource "::std::fmt::Display")
    (Token.ofSource "fn fmt(&self, f: &mut ::std::fmt::Formatter<" ++ Token.lifetime "_" ++
      Token.ofSource ">) -> ::std::fmt::Result" ++
      matchSelf (arms.flatMap DisplayArm.tokens))

def sourceFunction (arms : List SourceArm) : List Token :=
  if arms.isEmpty then []
  else
    Token.ofSource "#[allow(unreachable_patterns)] fn source(&self) -> ::std::option::Option<" ++
      errorReference ++ [.mark '>'] ++
      matchSelf (arms.flatMap SourceArm.tokens ++
        Token.ofSource "_ => ::std::option::Option::None,")

def errorImplementation (arms : List SourceArm) : List Token :=
  d.implementation lib (Token.ofSource "::std::error::Error") (sourceFunction arms)

def conversionImplementation (c : Conversion τ) : List Token :=
  let type := lib.typeTokens c.type
  d.implementation lib (Token.ofSource "::std::convert::From<" ++ type ++ [.mark '>'])
    (Token.ofSource "fn from(source:" ++ type ++ Token.ofSource ") -> Self" ++ braced c.body)

def tokens (e : Expansion τ) : List Token :=
  d.displayImplementation lib e.display ++ d.errorImplementation lib e.sources ++
    e.conversions.flatMap (d.conversionImplementation lib)

def generate : Except Problem (List Token) :=
  (Expansion.ofDescription lib d).map (d.tokens lib)

end Description
end PCode.ErrorType
