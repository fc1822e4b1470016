import PCode.ErrorType.Grammar.Type
/-!
Patterns.
-/

namespace PCode.ErrorType.Grammar

/-! Members -/

def position (digits : List Char) : Token := .literal (toString (Lexeme.wholeValue digits))

def atPosition : List Tree → Bool
  | .leaf (.literal source) _ :: _ => Token.isNumber source && '.' ∉ source.toList
  | _ => false

/-- The position of a tuple field is written as a plain decimal. -/
def positionalMember : Reader (List Token) := do
  require atPosition
  return (← next).map fun t => position t.spelling.toList

def member : Reader (List Token) := do
  if ← peek atName then next else positionalMember

variable (rules : Rules)

def rangeMark : Reader (List Token) := do
  if ← peek (atMark "..=") then mark "..="
  else if ← peek (atMark "...") then
    let _ ← mark "..."
    return "..=".toList.map .mark
  else mark ".."

def atRangeEnd (ts : List Tree) : Bool :=
  ts.isEmpty || atAnyMark ["|", "=", ",", ";"] ts || atColon ts || atWord "if" ts

/-- An end of a range, which can be missing. -/
def rangeBound : Reader (List Token) := do
  if ← peek atRangeEnd then nothing
  else if ← peek atLiteral then literal
  else if ← peek (atWord "const") then return (← next) ++ (← rules.block)
  else return (← qualifiedPath rules true).1.tokens

def alternatives : Reader (List Token) := do
  let leading ← optionalMark "|"
  let isMore (ts : List Tree) : Bool := atMark "|" ts && !atAnyMark ["||", "|="] ts
  let first ← rules.tokens .pattern
  return leading ++ first ++
    (← repeatWhile isMore do return (← mark "|") ++ (← rules.tokens .pattern))

def patternList (d : Delimiter) : Reader (List Token) :=
  inside d (commaSeparatedItems (alternatives rules))

/-- A field by its name alone, or with a pattern of its own. -/
def fieldPattern : Reader (List Token) := do
  let attributes ← outerAttributes rules
  if ← peek (atMark "..") then return attributes ++ (← mark "..")
  let binding := (← optionalWord "box") ++ (← optionalWord "ref") ++ (← optionalWord "mut")
  if !binding.isEmpty then return attributes ++ binding ++ (← name)
  let field ← member
  let own ← onlyIf (atMark ":") do return (← mark ":") ++ (← alternatives rules)
  return attributes ++ field ++ own

def pathPattern : Reader (List Token) := do
  let (p, qualified) ← qualifiedPath rules true
  let tokens := p.tokens
  if ← peek fun ts => atInvocation ts && !qualified && !p.hasArguments then
    return tokens ++ (← invocation)
  if ← peek (atGroup .brace) then
    return tokens ++ (← inside .brace (commaSeparatedItems (fieldPattern rules)))
  if ← peek (atGroup .parenthesis) then return tokens ++ (← patternList rules .parenthesis)
  if ← peek (atMark "..") then return tokens ++ (← rangeMark) ++ (← rangeBound rules)
  return tokens

def startsPathPattern (ts : List Tree) : Bool :=
  atName ts && (atAnyMark ["::", "!", ".."] (ts.drop 1) || atGroup .brace (ts.drop 1) ||
      atGroup .parenthesis (ts.drop 1)) ||
    atWord "self" ts && atMark "::" (ts.drop 1) || atAnyMark ["::", "<"] ts ||
    atOneOf ["Self", "super", "crate"] ts

def bindingPattern : Reader (List Token) := do
  let mode := (← optionalWord "ref") ++ (← optionalWord "mut")
  let first ← if ← peek (atWord "self") then next else name
  let own ← onlyIf (atMark "@") do return (← mark "@") ++ (← rules.tokens .pattern)
  return mode ++ first ++ own

def pattern : Reader Piece := do
  let start ← get
  if startsPathPattern start then ordinary (pathPattern rules)
  else if atWord "_" start then ordinary next
  else if atWord "box" start then
    let _ ← next
    let _ ← rules .pattern
    return ⟨← rawSince start, .raw⟩
  else if atLiteral start || atWord "const" start then
    ordinary do
      let first ← rangeBound rules
      return first ++ (← onlyIf (atMark "..") do return (← rangeMark) ++ (← rangeBound rules))
  else if atMark "&" start then
    ordinary do
      return (← mark "&") ++ (← optionalWord "mut") ++ (← rules.tokens .pattern)
  else if atGroup .parenthesis start then ordinary (patternList rules .parenthesis)
  else if atGroup .bracket start then ordinary (patternList rules .bracket)
  else if atMark ".." start then
    ordinary do return (← rangeMark) ++ (← rangeBound rules)
  else ordinary (bindingPattern rules)

/-- The parameter of a closure. -/
def closureParameter : Reader (List Token) := do
  let attributes ← outerAttributes rules
  let p ← rules .pattern
  if ← peek (atMark ":") then
    return attributes ++ p.tokens ++ (← mark ":") ++ (← rules.tokens (.type true))
  return (if p.shape = .raw then [] else attributes) ++ p.tokens

end PCode.ErrorType.Grammar
