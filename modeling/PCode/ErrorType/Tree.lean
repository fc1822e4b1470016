import PCode.ErrorType.Source
/-!
Token trees: what stands between two delimiters is one tree.
-/

namespace PCode.ErrorType

inductive Delimiter where
  | parenthesis
  | bracket
  | brace
  deriving DecidableEq

namespace Delimiter

def opening : Delimiter → Char
  | parenthesis => '('
  | bracket => '['
  | brace => '\x7b'

def closing : Delimiter → Char
  | parenthesis => ')'
  | bracket => ']'
  | brace => '\x7d'

def all : List Delimiter := [parenthesis, bracket, brace]

def ofOpening? (t : Token) : Option Delimiter := all.find? fun d => t = .mark d.opening

def isClosing (t : Token) : Bool := all.any fun d => t = .mark d.closing

def enclose (d : Delimiter) (ts : List Token) : List Token :=
  .mark d.opening :: ts ++ [.mark d.closing]

end Delimiter

inductive Tree where
  | leaf (token : Token) (joint : Bool)
  | group (delimiter : Delimiter) (content : List Tree)

namespace Tree

mutual

def tokens : Tree → List Token
  | .leaf t _ => [t]
  | .group d ts => d.enclose (listTokens ts)

def listTokens : List Tree → List Token
  | [] => []
  | t :: ts => t.tokens ++ listTokens ts

end

/-- The trees of the innermost open group, the last first, and those before each open delimiter. -/
structure Nesting where
  current : List Tree := []
  outer : List (Delimiter × List Tree) := []

namespace Nesting

def read (n : Nesting) (t : Lexed) : Nesting :=
  match Delimiter.ofOpening? t.token, n.outer with
  | some d, _ => ⟨[], (d, n.current) :: n.outer⟩
  | none, (d, before) :: outer =>
    if Delimiter.isClosing t.token then ⟨.group d n.current.reverse :: before, outer⟩
    else { n with current := .leaf t.token t.joint :: n.current }
  | none, [] => { n with current := .leaf t.token t.joint :: n.current }

/-- A delimiter that is still open counts as a mark. -/
def trees (n : Nesting) : List Tree :=
  n.outer.foldl
    (fun inner (d, before) => before.reverse ++ .leaf (.mark d.opening) false :: inner)
    n.current.reverse

end Nesting

def ofSource (s : String) : List Tree := ((Lexed.scan s.toList).foldl Nesting.read {}).trees

end Tree
end PCode.ErrorType
