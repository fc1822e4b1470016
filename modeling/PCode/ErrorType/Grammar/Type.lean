import PCode.ErrorType.Grammar.Path
/-!
Types.
-/

namespace PCode.ErrorType.Grammar

variable (rules : Rules)

/-- A path, perhaps after a type in angle brackets that it belongs to. -/
def qualifiedPath (inExpression : Bool) : Reader (Path × Bool) := do
  if ← peek (atMark "<") then
    let opening := (← mark "<") ++ (← rules.tokens (.type true))
    let trait ← onlyIf (atWord "as") do return (← next) ++ (← path rules false).tokens
    let opening := opening ++ trait ++ (← mark ">")
    let p : Path := ⟨opening, false, false, false⟩
    return (← furtherSegments rules (atMark "::") inExpression p (← get), true)
  return (← path rules inExpression, false)

def startsBound (ts : List Tree) : Bool :=
  atAnyWord ts || atAnyMark ["::", "?", "~"] ts || atLifetime ts || atGroup .parenthesis ts ||
    atGroup .bracket ts

/-- Bounds after a first one, if several are allowed. -/
def furtherBounds (plus : Bool) : Reader (List Token) :=
  repeatWhile (fun ts => plus && atMark "+" ts) do
    let sum ← mark "+"
    return sum ++ (← onlyIf startsBound (rules.tokens .bound))

def boundsOfType (plus : Bool) : Reader (List Token) := do
  return (← rules.tokens .bound) ++ (← furtherBounds rules plus)

def functionAbi : Reader (List Token) :=
  onlyIf (atWord "extern") do return (← next) ++ (← onlyIf atText next)

/-- A parameter of a function type. The first can be a receiver; a mutable one is kept as it was
read. -/
def bareParameter (first : Bool) : Reader (List Token) := do
  let attributes ← outerAttributes rules
  let start ← get
  let isMutable (ts : List Tree) : Bool := first && atWord "mut" ts && atWord "self" (ts.drop 1)
  let mutable ← peek isMutable
  if mutable then let _ ← next
  let named ← peek fun ts =>
    (atName ts || atWord "_" ts || first && atWord "self" ts) && atColon (ts.drop 1)
  let label ← if named then pure ((← next) ++ (← mark ":")) else nothing
  if mutable then
    let _ ← if named then rules.tokens (.type true) else word "self"
    return attributes ++ (← rawSince start)
  if ← peek isMutable then return attributes ++ label ++ (← next) ++ (← next)
  if ← peek (atMark "...") then return attributes ++ label ++ (← mark "...")
  return attributes ++ label ++ (← rules.tokens (.type true))

def bareFunction : Reader (List Token) := do
  let opening := (← optionalWord "unsafe") ++ (← functionAbi) ++ (← word "fn")
  let parameters ← inside .parenthesis do
    if (← get).isEmpty then return []
    let first := (← bareParameter rules true) ++ (← optionalMark ",")
    return first ++ (← commaSeparatedItems (bareParameter rules false))
  return opening ++ parameters ++ (← returnType rules false)

def pathType (plus : Bool) (bindings : List Token) : Reader Piece := do
  let (p, qualified) ← qualifiedPath rules false
  let arguments ← if ← peek fun ts => !p.endsInArguments && atParenthesizedArguments ts then
    parenthesizedArguments rules else nothing
  let tokens := bindings ++ p.tokens ++ arguments
  if qualified then return ⟨tokens, .ordinary⟩
  if ← peek fun ts => atInvocation ts && !p.hasArguments && arguments.isEmpty then
    return ⟨tokens ++ (← invocation), .ordinary⟩
  let further ← furtherBounds rules plus
  let shape : Shape :=
    if !bindings.isEmpty || !further.isEmpty then .ordinary
    else if p.isSegment && arguments.isEmpty then .segment
    else .path
  return ⟨tokens ++ further, shape⟩

/-- A tuple, or a type or a first bound in parentheses. -/
def parenthesizedType (plus : Bool) : Reader (List Token) := do
  let group ← inside .parenthesis (commaSeparatedItems (rules.tokens (.type true)))
  return group ++ (← furtherBounds rules plus)

def arrayType : Reader (List Token) :=
  inside .bracket do
    let element ← rules.tokens (.type true)
    let length ← onlyIf (atMark ";") do return (← mark ";") ++ (← rules.tokens (.expression true))
    return element ++ length

def startsFunction (ts : List Tree) : Bool := atOneOf ["fn", "unsafe", "extern"] ts

def startsPathType (ts : List Tree) : Bool :=
  atSimpleSegment ts || atMark "::" ts || atMark "<" ts

def ordinary (r : Reader (List Token)) : Reader Piece := return ⟨← r, .ordinary⟩

def type (plus : Bool) : Reader Piece := do
  let start ← get
  let bindings ← binder rules
  if ← peek startsFunction then return ⟨bindings ++ (← bareFunction rules), .ordinary⟩
  if ← peek startsPathType then return ← pathType rules plus bindings
  unless bindings.isEmpty do failure
  if ← peek (atGroup .parenthesis) then ordinary (parenthesizedType rules plus)
  else if ← peek (atGroup .bracket) then ordinary (arrayType rules)
  else if ← peek (atWord "dyn") then
    let opening ← next
    let star ← optionalMark "*"
    let content ← boundsOfType rules plus
    if star.isEmpty then return ⟨opening ++ content, .ordinary⟩
    return ⟨← rawSince start, .raw⟩
  else if ← peek (atWord "impl") then
    ordinary do return (← next) ++ (← boundsOfType rules plus)
  else if ← peek (atMark "*") then
    ordinary do
      let pointer ← mark "*"
      require (atOneOf ["const", "mut"])
      return pointer ++ (← next) ++ (← rules.tokens (.type false))
  else if ← peek (atMark "&") then
    ordinary do
      let reference := (← mark "&") ++ (← onlyIf atLifetime lifetime) ++ (← optionalWord "mut")
      return reference ++ (← rules.tokens (.type false))
  else if ← peek (atMark "!") then ordinary (mark "!")
  else if ← peek (atWord "_") then ordinary next
  else ordinary (boundsOfType rules plus)

end PCode.ErrorType.Grammar
