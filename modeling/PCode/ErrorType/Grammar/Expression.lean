import PCode.ErrorType.Grammar.Pattern
/-!
Expressions. The positions of tuple fields are written as plain decimals; otherwise an expression is
written as it was read.
-/

namespace PCode.ErrorType.Grammar

variable (rules : Rules)

def arguments : Reader (List Token) :=
  inside .parenthesis (commaSeparatedItems (rules.tokens (.expression true)))

def labelled : Reader (List Token) :=
  onlyIf atLifetime do return (← lifetime) ++ (← mark ":")

/-! Expressions that end in a block -/

def condition : Reader (List Token) := rules.tokens (.expression false)

def atElse (ts : List Tree) : Bool := atWord "else" ts

def conditional : Reader (List Token) := do
  let first := (← word "if") ++ (← condition rules) ++ (← rules.block)
  return first ++ (← repeatWhile atElse do
    let opening ← next
    let test ← onlyIf (atWord "if") do return (← next) ++ (← condition rules)
    return opening ++ test ++ (← rules.block))

def matchArm : Reader (List Token) := do
  let attributes ← outerAttributes rules
  let p ← alternatives rules
  let guard ← onlyIf (atWord "if") do return (← next) ++ (← rules.tokens (.expression true))
  let arrow ← mark "=>"
  let body ← rules.tokens .statementExpression
  return attributes ++ p ++ guard ++ arrow ++ body ++ (← optionalMark ",")

def selection : Reader (List Token) := do
  let opening := (← word "match") ++ (← condition rules)
  return opening ++ (← inside .brace do
    let attributes ← innerAttributes rules
    return attributes ++ (← repeatWhile (!·.isEmpty) (matchArm rules)))

def startsBinder (ts : List Tree) : Bool :=
  atWord "for" ts && atMark "<" (ts.drop 1) &&
    (atLifetime (ts.drop 2) || atMark ">" (ts.drop 2))

def startsBlockLike (ts : List Tree) : Bool :=
  atOneOf ["if", "while", "loop", "match", "unsafe"] ts ||
    atWord "for" ts && !startsBinder ts ||
    atOneOf ["try", "const"] ts && atGroup .brace (ts.drop 1) || atGroup .brace ts || atLifetime ts

def blockLike : Reader (List Token) := do
  let label ← labelled
  if ← peek (atWord "if") then return label ++ (← conditional rules)
  if ← peek (atWord "match") then return label ++ (← selection rules)
  if ← peek (atWord "while") then
    return label ++ (← next) ++ (← condition rules) ++ (← rules.block)
  if ← peek (atWord "for") then
    let opening := (← next) ++ (← alternatives rules) ++ (← word "in")
    return label ++ opening ++ (← condition rules) ++ (← rules.block)
  let opening ← onlyIf (atOneOf ["loop", "unsafe", "try", "const"]) next
  return label ++ opening ++ (← rules.block)

/-! Atoms -/

def closure (structs : Bool) : Reader (List Token) := do
  let opening := (← binder rules) ++ (← optionalWord "const") ++ (← optionalWord "static") ++
    (← optionalWord "async") ++ (← optionalWord "move") ++ (← mark "|")
  let parameters ← separated (atMark "|") "," (closureParameter rules)
  let closing ← mark "|"
  let body ← if ← peek (atMark "->") then pure ((← returnType rules true) ++ (← rules.block))
    else rules.tokens (.expression structs)
  return opening ++ parameters ++ closing ++ body

def startsClosure (ts : List Tree) : Bool :=
  atMark "|" ts || atOneOf ["move", "static"] ts || startsBinder ts ||
    atWord "const" ts && !atGroup .brace (ts.drop 1) ||
    atWord "async" ts && (atMark "|" (ts.drop 1) ||
      atWord "move" (ts.drop 1) && !atGroup .brace (ts.drop 2))

def startsExpression (ts : List Tree) : Bool :=
  atAnyWord ts && !atOneOf ["as", "else", "in", "where"] ts || atAnyGroup ts || atLiteral ts ||
    atMark "!" ts && !atMark "!=" ts || atMark "-" ts && !atAnyMark ["-=", "->"] ts ||
    atMark "*" ts && !atMark "*=" ts || atMark "|" ts && !atMark "|=" ts ||
    atMark "&" ts && !atMark "&=" ts || atAnyMark ["..", "::", "#"] ts ||
    atMark "<" ts && !atAnyMark ["<=", "<<="] ts || atLifetime ts

def startsOperand (structs : Bool) (ts : List Tree) : Bool :=
  startsExpression ts && (structs || !atGroup .brace ts)

def structureField : Reader (List Token) := do
  if ← peek (atMark "..") then
    return (← mark "..") ++ (← onlyIf (!·.isEmpty) (rules.tokens (.expression true)))
  let attributes ← outerAttributes rules
  let field ← member
  let value ← onlyIf (atMark ":") do return (← mark ":") ++ (← rules.tokens (.expression true))
  return attributes ++ field ++ value

def pathExpression (structs : Bool) : Reader (List Token) := do
  let (p, qualified) ← qualifiedPath rules true
  if ← peek fun ts => atInvocation ts && !qualified && !p.hasArguments then
    return p.tokens ++ (← invocation)
  if ← peek fun ts => structs && atGroup .brace ts then
    return p.tokens ++ (← inside .brace (commaSeparatedItems (structureField rules)))
  return p.tokens

def array : Reader (List Token) :=
  inside .bracket do
    let items ← commaSeparatedItems (rules.tokens (.expression true))
    return items ++
      (← onlyIf (atMark ";") do return (← mark ";") ++ (← rules.tokens (.expression true)))

def jumpLabel : Reader (List Token) :=
  onlyIf (fun ts => atLifetime ts && !atColon (after ts)) lifetime

def jump (structs : Bool) : Reader (List Token) := do
  let opening ← next
  let label ← jumpLabel
  return opening ++ label ++ (← onlyIf (startsOperand structs) (rules.tokens (.expression structs)))

def rangeFrom (structs : Bool) : Reader (List Token) := do
  let range ← if ← peek (atMark "..=") then mark "..=" else mark ".."
  return range ++ (← onlyIf (startsOperand structs) (rules.tokens (.operand structs)))

def atom (structs : Bool) : Reader Piece := do
  let start ← get
  if atLiteral start then ordinary literal
  else if atWord "async" start &&
      (atGroup .brace (start.drop 1) ||
        atWord "move" (start.drop 1) && atGroup .brace (start.drop 2)) then
    ordinary do return (← next) ++ (← optionalWord "move") ++ (← rules.block)
  else if startsClosure start then ordinary (closure rules structs)
  else if startsBlockLike start then ordinary (blockLike rules)
  else if atWord "builtin" start && atMark "#" (start.drop 1) then
    let _ := (← next) ++ (← next) ++ (← name) ++ (← anyGroup)
    return ⟨← rawSince start, .raw⟩
  else if atWord "become" start then
    let _ := (← next) ++ (← rules.tokens (.expression true))
    return ⟨← rawSince start, .raw⟩
  else if atGroup .parenthesis start then ordinary (arguments rules)
  else if atGroup .bracket start then ordinary (array rules)
  else if atWord "break" start then ordinary (jump rules structs)
  else if atOneOf ["return", "yield"] start then ordinary (jump rules true)
  else if atWord "continue" start then ordinary do return (← next) ++ (← jumpLabel)
  else if atWord "let" start then
    ordinary do
      let opening := (← next) ++ (← alternatives rules) ++ (← mark "=")
      return opening ++ (← rules.tokens (.operand structs))
  else if atMark ".." start then ordinary (rangeFrom rules structs)
  else if atWord "_" start then ordinary next
  else ordinary (pathExpression rules structs)

/-! Operands -/

/-- A number with a point inside stands for two positions. -/
def positions (source : String) : List Token :=
  let cs := source.toList
  let whole := cs.takeWhile (· ≠ '.')
  match cs.drop whole.length with
  | [] => [position whole]
  | [_] => [position whole]
  | _ :: rest => [position whole, .mark '.', position rest]

def endsInPoint (source : String) : Bool := source.toList.getLast? = some '.'

def namedSelection : Reader (List Token) := do
  if ← peek (atWord "await") then next
  else if ← peek atName then
    let field ← next
    let types ← onlyIf (atMark "::") (genericArguments rules)
    return field ++ types ++ (← onlyIf (atGroup .parenthesis) (arguments rules))
  else positionalMember

/-- What a point selects. A number whose point comes last has another selection after it. -/
def fieldSelection : Reader (List Token) := do
  match ← get with
  | .leaf (.literal source) _ :: rest =>
    set rest
    if endsInPoint source then return positions source ++ .mark '.' :: (← namedSelection rules)
    else return positions source
  | _ => namedSelection rules

def atSelection (ts : List Tree) : Bool := atMark "." ts && !atMark ".." ts

def startsSuffix (ts : List Tree) : Bool :=
  atGroup .parenthesis ts || atGroup .bracket ts || atSelection ts || atMark "?" ts

def suffixes : Reader (List Token) :=
  repeatWhile startsSuffix do
    if ← peek (atGroup .parenthesis) then arguments rules
    else if ← peek (atGroup .bracket) then inside .bracket (rules.tokens (.expression true))
    else if ← peek (atMark "?") then mark "?"
    else return (← mark ".") ++ (← fieldSelection rules)

def reference : Reader (List Token) := do
  let opening ← mark "&"
  let raw ← peek fun ts => atWord "raw" ts && atOneOf ["mut", "const"] (ts.drop 1)
  if raw then return opening ++ (← next) ++ (← next)
  return opening ++ (← optionalWord "mut")

def operand (structs : Bool) : Reader Piece := do
  let start ← get
  let attributes ← outerAttributes rules
  if ← peek (atMark "&") then
    ordinary do
      return attributes ++ (← reference) ++ (← rules.tokens (.operand structs))
  else if ← peek (atAnyMark ["*", "!", "-"]) then
    let operator ← next
    ordinary do return attributes ++ operator ++ (← rules.tokens (.operand structs))
  else
    let a ← atom rules structs
    let rest ← suffixes rules
    if !rest.isEmpty then return ⟨attributes ++ a.tokens ++ rest, .ordinary⟩
    if a.shape = .raw then return ⟨← rawSince start, .raw⟩
    return ⟨attributes ++ a.tokens, a.shape⟩

/-! Operators -/

def operators : List String :=
  ["<<=", ">>=", "+=", "-=", "*=", "/=", "%=", "^=", "&=", "|=", "&&", "||", "<<", ">>", "==", "<=",
    "!=", ">=", "+", "-", "*", "/", "%", "^", "&", "|", "<", ">"]

def operatorAt? (ts : List Tree) : Option String :=
  if atMark "=>" ts then none else (operators ++ ["="]).find? fun s => atMark s ts

/-- An operator and its second operand, or a conversion. -/
def operation (structs : Bool) : Reader (List Token) := do
  match operatorAt? (← get) with
  | some s => return (← mark s) ++ (← rules.tokens (.operand structs))
  | none => return (← word "as") ++ (← rules.tokens (.type false))

/-- What follows a first operand. Only a range takes attributes in its place. -/
def continuations (structs : Bool) (first : Piece) : List Tree → Reader Piece
  | [] => return first
  | _ :: bound => do
    let ts ← get
    if (operatorAt? ts).isSome || atWord "as" ts then
      let rest ← operation rules structs
      let shape : Shape := if first.shape = .raw then .raw else .ordinary
      continuations structs ⟨first.tokens ++ rest, shape⟩ bound
    else if atMark ".." ts && !atMark "..." ts then
      continuations structs ⟨first.tokens ++ (← rangeFrom rules structs), .ordinary⟩ bound
    else return first

def expression (structs : Bool) : Reader Piece := do
  let first ← operand rules structs
  continuations rules structs first (← get)

/-- An expression at the start of a statement or after the arrow of a match. After a block it goes
on only with a selection. -/
def statementExpression : Reader Piece := do
  let attributes ← outerAttributes rules
  if ← peek startsBlockLike then
    let b ← blockLike rules
    if ← peek fun ts => atSelection ts || atMark "?" ts then
      let first : Piece := ⟨attributes ++ b ++ (← suffixes rules), .ordinary⟩
      continuations rules true first (← get)
    else return ⟨attributes ++ b, .ordinary⟩
  else
    let first ← operand rules true
    let kept := if first.shape = .raw then [] else attributes
    continuations rules true ⟨kept ++ first.tokens, first.shape⟩ (← get)

end PCode.ErrorType.Grammar
