import PCode.ErrorType.Grammar.Attribute
/-!
Paths, their arguments, bounds and generic parameters. In angle brackets lifetimes are written
first.
-/

namespace PCode.ErrorType.Grammar

/-- An item of a list in angle brackets. -/
structure AngleItem where
  tokens : List Token
  isLifetime : Bool
  deriving DecidableEq

/-- Every item keeps its comma. A lifetime that had none gets one before another item. -/
def lifetimesFirst (items : List (AngleItem × List Token)) : List Token :=
  let spelled (items : List (AngleItem × List Token)) : List Token :=
    items.flatMap fun (item, comma) => item.tokens ++ comma
  let lifetimes := items.filter fun (item, _) => item.isLifetime
  let others := items.filter fun (item, _) => !item.isLifetime
  let comma := if others.isEmpty || (lifetimes.getLast?.map Prod.snd).all (· ≠ []) then []
    else [.mark ',']
  spelled lifetimes ++ comma ++ spelled others

def angleItems (item : Reader AngleItem) : Reader (List (AngleItem × List Token)) :=
  separatedItems (atMark ">") "," item

structure Path where
  tokens : List Token
  /-- Whether it is one segment without a mark before it. -/
  isSegment : Bool
  /-- Whether a segment has arguments. -/
  hasArguments : Bool
  /-- Whether the last segment has arguments. -/
  endsInArguments : Bool
  deriving DecidableEq

def atColon (ts : List Tree) : Bool := atMark ":" ts && !atMark "::" ts

/-- An argument list in parentheses, which may have a mark before it. -/
def atParenthesizedArguments (ts : List Tree) : Bool :=
  atGroup .parenthesis ts || atMark "::" ts && atGroup .parenthesis (ts.drop 2)

variable (rules : Rules)

def returnType (plus : Bool) : Reader (List Token) :=
  onlyIf (atMark "->") do return (← mark "->") ++ (← rules.tokens (.type plus))

def parenthesizedArguments : Reader (List Token) := do
  let _ ← optionalMark "::"
  return (← inside .parenthesis (commaSeparatedItems (rules.tokens (.type true)))) ++
    (← returnType rules false)

def bounds (stop : List Tree → Bool) : Reader (List Token) :=
  separated stop "+" (rules.tokens .bound)

def constantArgument : Reader (List Token) := do
  if ← peek atLiteral then literal
  else if ← peek atName then next
  else rules.block

def atConstantArgument (ts : List Tree) : Bool := atLiteral ts || atGroup .brace ts

def genericArgument : Reader AngleItem := do
  if ← peek fun ts => atLifetime ts && !atMark "+" (after ts) then return ⟨← lifetime, true⟩
  if ← peek atConstantArgument then return ⟨← constantArgument rules, false⟩
  let t ← rules (.type true)
  if t.shape = .segment then
    if ← peek (atMark "=") then
      let equals ← mark "="
      let value ← if ← peek atConstantArgument then constantArgument rules
        else rules.tokens (.type true)
      return ⟨t.tokens ++ equals ++ value, false⟩
    if ← peek (atMark ":") then
      let colon ← mark ":"
      return ⟨t.tokens ++ colon ++ (← bounds rules (atAnyMark [",", ">"])), false⟩
  return ⟨t.tokens, false⟩

def genericArguments : Reader (List Token) := do
  let path ← optionalMark "::"
  let opening ← mark "<"
  let items ← angleItems (genericArgument rules)
  return path ++ opening ++ lifetimesFirst items ++ (← mark ">")

/-- In an expression the arguments of a segment follow a mark. -/
def segment (inExpression : Bool) : Reader Path := do
  if ← peek (atOneOf ["super", "self", "crate", "try"]) then return ⟨← next, true, false, false⟩
  let first ← if ← peek (atWord "Self") then next else name
  let hasArguments ← peek fun ts =>
    !inExpression && atMark "<" ts && !atMark "<=" ts || atMark "::" ts && atMark "<" (ts.drop 2)
  if hasArguments then return ⟨first ++ (← genericArguments rules), true, true, true⟩
  return ⟨first, true, false, false⟩

def furtherSegments (more : List Tree → Bool) (inExpression : Bool) (p : Path) :
    List Tree → Reader Path
  | [] => return p
  | _ :: bound => do
    if ← peek more then
      let separation ← mark "::"
      let s ← segment rules inExpression
      furtherSegments more inExpression
        ⟨p.tokens ++ separation ++ s.tokens, false, p.hasArguments || s.hasArguments,
          s.endsInArguments⟩ bound
    else return p

def path (inExpression : Bool) : Reader Path := do
  let leading ← optionalMark "::"
  let s ← segment rules inExpression
  let p : Path := { s with tokens := leading ++ s.tokens, isSegment := leading.isEmpty }
  furtherSegments rules (fun ts => atMark "::" ts && !atGroup .parenthesis (ts.drop 2)) inExpression
    p (← get)

/-! Generic parameters -/

/-- A colon without bounds is not written. -/
def withColon (colon bounds : List Token) : List Token :=
  if bounds.isEmpty then [] else colon ++ bounds

def lifetimeBounds (stop : List Tree → Bool) : Reader (List Token) := separated stop "+" lifetime

def atParameterEnd (ts : List Tree) : Bool := atAnyMark [",", ">", "="] ts

def genericParameter : Reader AngleItem := do
  let attributes ← outerAttributes rules
  if ← peek atLifetime then
    let first ← lifetime
    let colon ← optionalMark ":"
    let bounds ← if colon.isEmpty then nothing else lifetimeBounds atParameterEnd
    return ⟨attributes ++ first ++ withColon colon bounds, true⟩
  if ← peek (atWord "const") then
    let first ← next
    let declared := first ++ (← name) ++ (← mark ":") ++ (← rules.tokens (.type true))
    let value ← onlyIf (atMark "=") do return (← mark "=") ++ (← constantArgument rules)
    return ⟨attributes ++ declared ++ value, false⟩
  let first ← if ← peek (atWord "_") then next else name
  let colon ← optionalMark ":"
  let bounds ← if colon.isEmpty then nothing else bounds rules atParameterEnd
  let value ← onlyIf (atMark "=") do return (← mark "=") ++ (← rules.tokens (.type true))
  return ⟨attributes ++ first ++ withColon colon bounds ++ value, false⟩

/-- Parameters of a binder stay in their order. -/
def binder : Reader (List Token) :=
  onlyIf (atWord "for") do
    let opening := (← word "for") ++ (← mark "<")
    let parameters ← angleItems (genericParameter rules)
    return opening ++ (parameters.flatMap fun (item, comma) => item.tokens ++ comma) ++
      (← mark ">")

/-- Empty angle brackets are not written. -/
def genericParameters : Reader (List Token) :=
  onlyIf (atMark "<") do
    let opening ← mark "<"
    let parameters ← angleItems (genericParameter rules)
    let closing ← mark ">"
    return if parameters.isEmpty then [] else opening ++ lifetimesFirst parameters ++ closing

/-! Bounds -/

/-- The arguments that a bound captures. -/
def capture : Reader (List Token) := do
  let opening := (← word "use") ++ (← mark "<")
  let items ← angleItems do
    if ← peek atLifetime then return ⟨← lifetime, true⟩
    return ⟨← anyWord, false⟩
  return opening ++ lifetimesFirst items ++ (← mark ">")

/-- A bound that has to hold in constants is kept as it was read. -/
def traitBound : Reader Piece := do
  let first ← binder rules
  let constant ←
    if ← peek (atGroup .bracket) then next
    else pure ((← optionalMark "~") ++ (← optionalWord "const"))
  let modifier ← optionalMark "?"
  let second ← if first.isEmpty then binder rules else nothing
  let p ← path rules false
  let arguments ← if ← peek fun ts => !p.endsInArguments && atParenthesizedArguments ts then
    parenthesizedArguments rules else nothing
  return ⟨first ++ constant ++ modifier ++ second ++ p.tokens ++ arguments,
    if constant.isEmpty then .ordinary else .raw⟩

def bound : Reader Piece := do
  if ← peek atLifetime then return ⟨← lifetime, .ordinary⟩
  if ← peek (atWord "use") then return ⟨← capture, .ordinary⟩
  let start ← get
  let piece ← match start with
    | .group .parenthesis content :: rest =>
      match (traitBound rules).run content with
      | some (piece, []) =>
        set rest
        pure { piece with tokens := Delimiter.parenthesis.enclose piece.tokens }
      | _ => failure
    | _ => traitBound rules
  if piece.shape = .raw then return ⟨← rawSince start, .raw⟩
  return piece

/-! Predicates -/

def atPredicateEnd (ts : List Tree) : Bool :=
  ts.isEmpty || atGroup .brace ts || atAnyMark [",", ";", "="] ts || atColon ts

def predicate : Reader (List Token) := do
  if ← peek fun ts => atLifetime ts && atMark ":" (after ts) then
    let subject := (← lifetime) ++ (← mark ":")
    return subject ++ (← lifetimeBounds atPredicateEnd)
  let subject := (← binder rules) ++ (← rules.tokens (.type true)) ++ (← mark ":")
  return subject ++ (← bounds rules atPredicateEnd)

def predicates : Reader (List Token) := separated atPredicateEnd "," (predicate rules)

/-- A clause without predicates is not written. -/
def whereClause : Reader (List Token) :=
  onlyIf (atWord "where") do
    let opening ← word "where"
    let ps ← predicates rules
    return if ps.isEmpty then [] else opening ++ ps

end PCode.ErrorType.Grammar
