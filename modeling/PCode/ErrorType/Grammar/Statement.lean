import PCode.ErrorType.Grammar.Item
/-!
Statements.
-/

namespace PCode.ErrorType.Grammar

/-! What a statement starts with -/

def afterSimplePath (ts : List Tree) : List Tree := ((simplePath.run ts).map Prod.snd).getD []

/-- A call of a macro that defines something. -/
def startsItemInvocation (ts : List Tree) : Bool :=
  let rest := afterSimplePath ts
  atMark "!" rest && (atName (rest.drop 1) || atWord "try" (rest.drop 1))

/-- A call with braces is a statement, if nothing is selected from it. -/
def startsBracedInvocation (ts : List Tree) : Bool :=
  let rest := afterSimplePath ts
  let following := rest.drop 2
  atMark "!" rest && atGroup .brace (rest.drop 1) &&
    !(atSelection following || atMark "?" following)

def startsFunctionItem (ts : List Tree) : Bool := atOneOf ["unsafe", "extern", "fn"] ts

def startsConstantItem (ts : List Tree) : Bool :=
  atWord "const" ts &&
    !(atGroup .brace (ts.drop 1) || atOneOf ["static", "move"] (ts.drop 1) ||
      atMark "|" (ts.drop 1) ||
      atWord "async" (ts.drop 1) && !startsFunctionItem (ts.drop 2))

def startsStaticItem (ts : List Tree) : Bool :=
  atWord "static" ts && (atWord "mut" (ts.drop 1) || atName (ts.drop 1))

def startsItem (ts : List Tree) : Bool :=
  atOneOf ["pub", "extern", "use", "fn", "mod", "type", "struct", "enum"] ts ||
    atOneOf ["trait", "impl", "macro"] ts ||
    atWord "crate" ts && !atMark "::" (ts.drop 1) ||
    startsStaticItem ts || startsConstantItem ts ||
    atWord "unsafe" ts && !atGroup .brace (ts.drop 1) ||
    atWord "async" ts && startsFunctionItem (ts.drop 1) ||
    atWord "union" ts && atName (ts.drop 1) ||
    atWord "auto" ts && atWord "trait" (ts.drop 1) ||
    atWord "default" ts && atOneOf ["unsafe", "impl"] (ts.drop 1) ||
    startsItemInvocation ts

variable (rules : Rules)

def localBinding : Reader (List Token) := do
  let opening := (← word "let") ++ (← rules.tokens .pattern)
  let typed ← onlyIf (atMark ":") do return (← mark ":") ++ (← rules.tokens (.type true))
  let value ← definition rules
  let otherwise ← onlyIf atElse do return (← next) ++ (← rules.block)
  return opening ++ typed ++ value ++ otherwise ++ (← mark ";")

def statement : Reader (List Token) := do
  let start ← get
  let attributes ← outerAttributes rules
  let ts ← get
  if startsBracedInvocation ts then
    return attributes ++ (← simplePath) ++ (← invocation) ++ (← optionalMark ";")
  if atWord "let" ts then return attributes ++ (← localBinding rules)
  if startsItem ts then return (← itemAfter rules start attributes).tokens
  let e ← rules .statementExpression
  return (if e.shape = .raw then [] else attributes) ++ e.tokens ++ (← optionalMark ";")

/-- The content of a block. -/
def statements : Reader (List Token) := do
  let attributes ← innerAttributes rules
  return attributes ++ (← repeatWhile (!·.isEmpty) do
    if ← peek (atMark ";") then next else statement rules)

end PCode.ErrorType.Grammar
