import PCode.ErrorType.Tree
/-!
Readers of token trees. A reader gives the tokens in the form in which they are written out, which
need not be the form in which they were read.
-/

namespace PCode.ErrorType.Grammar

/-! What comes next -/

def reservedWords : List String :=
  ["_", "abstract", "as", "async", "await", "become", "box", "break", "const", "continue", "crate",
    "do", "dyn", "else", "enum", "extern", "false", "final", "fn", "for", "if", "impl", "in", "let",
    "loop", "macro", "match", "mod", "move", "mut", "override", "priv", "pub", "ref", "return",
    "Self", "self", "static", "struct", "super", "trait", "true", "try", "type", "typeof", "unsafe",
    "unsized", "use", "virtual", "where", "while", "yield"]

def atWord (w : String) : List Tree → Bool
  | .leaf (.word v) _ :: _ => v == w
  | _ => false

def atAnyWord : List Tree → Bool
  | .leaf (.word _) _ :: _ => true
  | _ => false

def atOneOf (ws : List String) (ts : List Tree) : Bool := ws.any fun w => atWord w ts

/-- A word that is not reserved. -/
def atName : List Tree → Bool
  | .leaf (.word v) _ :: _ => v ∉ reservedWords
  | _ => false

/-- A mark of several characters has nothing between them. -/
def atMarks : List Char → List Tree → Bool
  | [], _ => true
  | [c], .leaf (.mark d) _ :: _ => c == d
  | c :: cs, .leaf (.mark d) joint :: ts => c == d && joint && atMarks cs ts
  | _, _ => false

def atMark (s : String) (ts : List Tree) : Bool := atMarks s.toList ts

def atAnyMark (marks : List String) (ts : List Tree) : Bool := marks.any fun s => atMark s ts

def atGroup (d : Delimiter) : List Tree → Bool
  | .group e _ :: _ => d = e
  | _ => false

def atAnyGroup : List Tree → Bool
  | .group _ _ :: _ => true
  | _ => false

def atLifetime : List Tree → Bool
  | .leaf (.mark c) _ :: .leaf (.word _) _ :: _ => c == Token.quote
  | _ => false

def atText : List Tree → Bool
  | .leaf (.text _) _ :: _ => true
  | _ => false

def atNumber : List Tree → Bool
  | .leaf (.literal source) _ :: _ => Token.isNumber source
  | _ => false

/-- A literal, which can be a number with a minus. -/
def atLiteral (ts : List Tree) : Bool :=
  match ts with
  | .leaf (.text _) _ :: _ => true
  | .leaf (.literal _) _ :: _ => true
  | .leaf (.mark '-') _ :: rest => atNumber rest
  | ts => atOneOf ["true", "false"] ts

/-- What follows the next tree. A lifetime counts as one. -/
def after (ts : List Tree) : List Tree := if atLifetime ts then ts.drop 2 else ts.drop 1

/-! Reading -/

abbrev Reader := StateT (List Tree) Option

def peek (p : List Tree → Bool) : Reader Bool := return p (← get)

def require (p : List Tree → Bool) : Reader Unit := do
  unless ← peek p do failure

def next : Reader (List Token) := do
  match ← get with
  | [] => failure
  | t :: ts =>
    set ts
    return t.tokens

def nothing : Reader (List Token) := return []

def word (w : String) : Reader (List Token) := do
  require (atWord w)
  next

def name : Reader (List Token) := do
  require atName
  next

def anyWord : Reader (List Token) := do
  require atAnyWord
  next

def mark (s : String) : Reader (List Token) := do
  require (atMark s)
  modify (·.drop s.length)
  return s.toList.map .mark

def lifetime : Reader (List Token) := do
  require atLifetime
  return (← next) ++ (← next)

def literal : Reader (List Token) := do
  require atLiteral
  if ← peek (atMark "-") then return (← next) ++ (← next)
  next

def anyGroup : Reader (List Token) := do
  require atAnyGroup
  next

def onlyIf (p : List Tree → Bool) (r : Reader (List Token)) : Reader (List Token) := do
  if ← peek p then r else nothing

def optionalWord (w : String) : Reader (List Token) := onlyIf (atWord w) next

def optionalMark (s : String) : Reader (List Token) := onlyIf (atMark s) (mark s)

/-- Reads all of a group. -/
def inside (d : Delimiter) (r : Reader (List Token)) : Reader (List Token) := do
  match ← get with
  | .group e content :: rest =>
    match r.run content with
    | some (ts, []) =>
      if d = e then
        set rest
        return d.enclose ts
      else failure
    | _ => failure
  | _ => failure

/-- The tokens since `start` as they were read. -/
def rawSince (start : List Tree) : Reader (List Token) := do
  return Tree.listTokens (start.take (start.length - (← get).length))

/-- The last argument bounds the number of rounds. -/
def repeatWithin (p : List Tree → Bool) (r : Reader (List Token)) : List Tree → Reader (List Token)
  | [] => nothing
  | _ :: bound => do
    if ← peek p then return (← r) ++ (← repeatWithin p r bound) else nothing

/-- Reads while the next trees satisfy `p`. -/
def repeatWhile (p : List Tree → Bool) (r : Reader (List Token)) : Reader (List Token) := do
  repeatWithin p r (← get)

def separatedWithin {α : Type} (stop : List Tree → Bool) (separator : String) (item : Reader α) :
    List Tree → Reader (List (α × List Token))
  | [] => return []
  | _ :: bound => do
    if ← peek stop then return []
    let a ← item
    if ← peek (atMark separator) then
      let separation ← mark separator
      return (a, separation) :: (← separatedWithin stop separator item bound)
    return [(a, [])]

/-- Items, each with the separator that follows it, if any. -/
def separatedItems {α : Type} (stop : List Tree → Bool) (separator : String) (item : Reader α) :
    Reader (List (α × List Token)) := do
  separatedWithin stop separator item (← get)

def separated (stop : List Tree → Bool) (separator : String) (item : Reader (List Token)) :
    Reader (List Token) := do
  return (← separatedItems stop separator item).flatMap fun (ts, separation) => ts ++ separation

/-- Items and commas up to the end. -/
def commaSeparatedItems (item : Reader (List Token)) : Reader (List Token) :=
  separated List.isEmpty "," item

/-! Rules -/

/-- What kind of thing was read, as far as what follows depends on it. -/
inductive Shape where
  | ordinary
  /-- A path of one segment, perhaps with arguments in angle brackets. -/
  | segment
  | path
  /-- Something that is kept as it was read, and takes no attributes. -/
  | raw
  deriving DecidableEq

structure Piece where
  tokens : List Token
  shape : Shape := .ordinary
  deriving DecidableEq

/-- What is read recursively. `plus` allows several bounds, `structs` the value of a structure in
braces. -/
inductive Rule where
  | type (plus : Bool)
  | bound
  | pattern
  | operand (structs : Bool)
  | expression (structs : Bool)
  | statementExpression
  | statements
  | item
  | traitItem
  | implementationItem
  | foreignItem
  deriving DecidableEq

abbrev Rules := Rule → Reader Piece

namespace Rules

def tokens (rules : Rules) (r : Rule) : Reader (List Token) := return (← rules r).tokens

def block (rules : Rules) : Reader (List Token) := inside .brace (rules.tokens .statements)

end Rules
end PCode.ErrorType.Grammar
