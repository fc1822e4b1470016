import PCode.ErrorType.Grammar.Expression
/-!
Items. Clauses and bounds that are empty are not written, and what the language does not allow where
it stands is kept as it was read.
-/

namespace PCode.ErrorType.Grammar

/-! Visibility -/

def restrictsVisibility : List Tree → Bool
  | .group .parenthesis content :: _ =>
    atWord "in" content || content.length == 1 && atOneOf ["crate", "self", "super"] content
  | _ => false

def visibility : Reader (List Token) :=
  onlyIf (atWord "pub") do return (← next) ++ (← onlyIf restrictsVisibility next)

variable (rules : Rules)

/-! Functions -/

def skipWord (w : String) (ts : List Tree) : List Tree := if atWord w ts then ts.drop 1 else ts

def skipAbi (ts : List Tree) : List Tree :=
  if atWord "extern" ts then (if atText (ts.drop 1) then ts.drop 2 else ts.drop 1) else ts

/-- A foreign function can be called safe. -/
def atSignature (foreign : Bool) (ts : List Tree) : Bool :=
  let ts := skipWord "async" (skipWord "const" ts)
  let ts := skipAbi (if foreign && atWord "safe" ts then ts.drop 1 else skipWord "unsafe" ts)
  atWord "fn" ts && !atGroup .parenthesis (ts.drop 1)

def startsReceiver (ts : List Tree) : Bool :=
  let ts := if atMark "&" ts then (if atLifetime (ts.drop 1) then ts.drop 3 else ts.drop 1) else ts
  let ts := skipWord "mut" ts
  atWord "self" ts && !atMark "::" (ts.drop 1)

def receiver : Reader (List Token) := do
  let reference ← onlyIf (atMark "&") do return (← mark "&") ++ (← onlyIf atLifetime lifetime)
  let first := reference ++ (← optionalWord "mut") ++ (← word "self")
  return first ++ (← onlyIf (atMark ":") do return (← mark ":") ++ (← rules.tokens (.type true)))

/-- A type with arguments can stand without a pattern, which is then written as a blank. -/
def parameter : Reader (List Token) := do
  let attributes ← outerAttributes rules
  if ← peek (atMark "...") then return attributes ++ (← mark "...")
  if ← peek startsReceiver then return attributes ++ (← receiver rules)
  if ← peek fun ts => atName ts && atMark "<" (ts.drop 1) then
    return attributes ++ [.word "_", .mark ':'] ++ (← rules.tokens (.type true))
  let p := (← rules.tokens .pattern) ++ (← mark ":")
  if ← peek (atMark "...") then return attributes ++ p ++ (← mark "...")
  return attributes ++ p ++ (← rules.tokens (.type true))

def signature : Reader (List Token) := do
  let qualifiers := (← optionalWord "const") ++ (← optionalWord "async") ++
    (← onlyIf (atOneOf ["unsafe", "safe"]) next) ++ (← functionAbi)
  let named := (← word "fn") ++ (← name) ++ (← genericParameters rules)
  let parameters ← inside .parenthesis (commaSeparatedItems (parameter rules))
  return qualifiers ++ named ++ parameters ++ (← returnType rules true) ++ (← whereClause rules)

/-! Values and types -/

def definition : Reader (List Token) :=
  onlyIf (atMark "=") do return (← mark "=") ++ (← rules.tokens (.expression true))

/-- A constant, and whether it is kept as it was read: with parameters or a clause of its own, or
without a value that it needs. -/
def constant (needsValue : Bool) : Reader (List Token × Bool) := do
  let opening ← word "const"
  let first ← if ← peek (atWord "_") then next else name
  let generic ← peek (atMark "<")
  let parameters ← genericParameters rules
  let typed := (← mark ":") ++ (← rules.tokens (.type true))
  let value ← definition rules
  let conditional ← peek (atWord "where")
  let clause ← whereClause rules
  let tokens := opening ++ first ++ parameters ++ typed ++ value ++ clause ++ (← mark ";")
  return (tokens, generic || conditional || needsValue && value.isEmpty)

structure Declaration where
  tokens : List Token
  hasColon : Bool
  hasValue : Bool
  deriving DecidableEq

def staticDeclaration : Reader Declaration := do
  let named := (← word "static") ++ (← optionalWord "mut") ++ (← name)
  let typed ← onlyIf (atMark ":") do return (← mark ":") ++ (← rules.tokens (.type true))
  let value ← definition rules
  return ⟨named ++ typed ++ value ++ (← mark ";"), !typed.isEmpty, !value.isEmpty⟩

def typeDeclaration (whereFirst whereLast : Bool) : Reader Declaration := do
  let named := (← word "type") ++ (← name) ++ (← genericParameters rules)
  let colon ← optionalMark ":"
  let limits ← if colon.isEmpty then nothing
    else bounds rules fun ts => atWord "where" ts || atAnyMark ["=", ";"] ts
  let conditional ← peek (atWord "where")
  let before ← if whereFirst then whereClause rules else nothing
  let value ← onlyIf (atMark "=") do return (← mark "=") ++ (← rules.tokens (.type true))
  let behind ← if whereLast && !(whereFirst && conditional) then whereClause rules else nothing
  let tokens := named ++ withColon colon limits ++ before ++ value ++ behind ++ (← mark ";")
  return ⟨tokens, !colon.isEmpty, !value.isEmpty⟩

/-! Fields -/

def namedField : Reader (List Token) := do
  let attributes ← outerAttributes rules
  let seen ← visibility
  let start ← get
  let unnamed := atWord "_" start
  let first := (← if unnamed then next else name) ++ (← mark ":")
  if ← peek fun ts => unnamed && atOneOf ["struct", "union"] ts && atGroup .brace (ts.drop 1) then
    return attributes ++ seen ++ first ++ (← next) ++ (← next)
  return attributes ++ seen ++ first ++ (← rules.tokens (.type true))

def unnamedField : Reader (List Token) := do
  let attributes ← outerAttributes rules
  return attributes ++ (← visibility) ++ (← rules.tokens (.type true))

def namedFields : Reader (List Token) := inside .brace (commaSeparatedItems (namedField rules))

def unnamedFields : Reader (List Token) :=
  inside .parenthesis (commaSeparatedItems (unnamedField rules))

/-- The visibility of a variant is not written. -/
def variant : Reader (List Token) := do
  let attributes ← outerAttributes rules
  let _ ← visibility
  let first ← name
  let fields ←
    if ← peek (atGroup .brace) then namedFields rules
    else onlyIf (atGroup .parenthesis) (unnamedFields rules)
  return attributes ++ first ++ fields ++ (← definition rules)

def structItem : Reader (List Token) := do
  let named := (← word "struct") ++ (← name) ++ (← genericParameters rules)
  let before ← whereClause rules
  if ← peek (atGroup .brace) then return named ++ before ++ (← namedFields rules)
  let fields ← onlyIf (atGroup .parenthesis) (unnamedFields rules)
  return named ++ before ++ fields ++ (← whereClause rules) ++ (← mark ";")

/-! Bodies -/

/-- The attributes and the members in braces. -/
def members (r : Rule) : Reader (List Token) :=
  inside .brace do
    let attributes ← innerAttributes rules
    return attributes ++ (← repeatWhile (!·.isEmpty) (rules.tokens r))

def itemInvocation : Reader (List Token) := do
  let opening := (← simplePath) ++ (← mark "!") ++ (← onlyIf atAnyWord next)
  let braced ← peek (atGroup .brace)
  let content ← anyGroup
  return opening ++ content ++ (← if braced then nothing else mark ";")

def startsImplementationParameters (ts : List Tree) : Bool :=
  let first := ts.drop 1
  atMark "<" ts && (atAnyMark [">", "#"] first || atWord "const" first ||
    (atLifetime first || atName first) && atAnyMark [":", ",", ">", "="] (after first))

/-- An implementation, and whether it is kept as it was read. -/
def implementation : Reader (List Token × Bool) := do
  let opening := (← optionalWord "default") ++ (← optionalWord "unsafe") ++ (← word "impl")
  let parameters ← onlyIf startsImplementationParameters (genericParameters rules)
  let constant := (← onlyIf (fun ts => atMark "?" ts && atWord "const" (ts.drop 1)) next) ++
    (← optionalWord "const")
  let start ← get
  let negation ← onlyIf (fun ts => atMark "!" ts && !atGroup .brace (ts.drop 1)) (mark "!")
  let first ← rules (.type true)
  let raw ← rawSince start
  let ofTrait ← peek (atWord "for")
  let subject ←
    if ofTrait then
      pure (negation ++ first.tokens ++ (← next) ++ (← rules.tokens (.type true)))
    else if negation.isEmpty then pure first.tokens
    else pure raw
  let clause ← whereClause rules
  let content ← members rules .implementationItem
  let isPath := first.shape = .segment || first.shape = .path
  return (opening ++ parameters ++ constant ++ subject ++ clause ++ content,
    !constant.isEmpty || ofTrait && !isPath)

def traitDefinition : Reader (List Token) := do
  let named := (← optionalWord "unsafe") ++ (← optionalWord "auto") ++ (← word "trait") ++
    (← name) ++ (← genericParameters rules)
  if ← peek (atMark "=") then
    let value := (← mark "=") ++ (← bounds rules fun ts => atWord "where" ts || atMark ";" ts)
    return named ++ value ++ (← whereClause rules) ++ (← mark ";")
  let colon ← optionalMark ":"
  let limits ← if colon.isEmpty then nothing
    else bounds rules fun ts => atWord "where" ts || atGroup .brace ts
  let clause ← whereClause rules
  return named ++ withColon colon limits ++ clause ++ (← members rules .traitItem)

def moduleItem : Reader (List Token) := do
  let named := (← optionalWord "unsafe") ++ (← word "mod") ++
    (← if ← peek (atWord "try") then next else name)
  if ← peek (atMark ";") then return named ++ (← mark ";")
  return named ++ (← members rules .item)

def foreignModule : Reader (List Token) := do
  let opening := (← optionalWord "unsafe") ++ (← functionAbi)
  return opening ++ (← members rules .foreignItem)

/-- Everything up to a semicolon. -/
def statementTokens : Reader (List Token) := do
  return (← repeatWhile (fun ts => !ts.isEmpty && !atMark ";" ts) next) ++ (← mark ";")

mutual

/-- Whether a group of imported names holds one that starts at the root. -/
def hasRootedName : Tree → Bool
  | .group .brace content => hasRootedNameFrom true content
  | _ => false

def hasRootedNameFrom (first : Bool) : List Tree → Bool
  | [] => false
  | t :: ts => first && (atMark "::" (t :: ts) || hasRootedName t) ||
      hasRootedNameFrom (atMark "," [t]) ts

end

/-! Where items stand -/

def keptIf (raw : Bool) (start : List Tree) (tokens : List Token) : Reader Piece := do
  if raw then return ⟨← rawSince start, .raw⟩ else return ⟨tokens, .ordinary⟩

def ruleDefinition : Reader (List Token) := do
  let named := (← word "macro") ++ (← name)
  let parameters ← onlyIf (atGroup .parenthesis) next
  require (atGroup .brace)
  return named ++ parameters ++ (← next)

/-- The rest of an item, after its attributes. -/
def itemAfter (start : List Tree) (attributes : List Token) : Reader Piece := do
  let visible ← peek (atWord "pub")
  let opening := attributes ++ (← visibility)
  let ts ← get
  let unqualified := skipWord "unsafe" ts
  let read (r : Reader (List Token)) : Reader Piece := do return ⟨opening ++ (← r), .ordinary⟩
  if atSignature false ts then
    let declared ← signature rules
    let omitted ← peek (atMark ";")
    let body ← if omitted then mark ";" else rules.block
    keptIf omitted start (opening ++ declared ++ body)
  else if atWord "extern" ts && atWord "crate" (ts.drop 1) then read statementTokens
  else if atWord "extern" unqualified then read (foreignModule rules)
  else if atWord "use" ts then
    keptIf ((ts.drop 1).head?.any hasRootedName) start (opening ++ (← statementTokens))
  else if atWord "static" ts then
    let d ← staticDeclaration rules
    keptIf (!d.hasColon || !d.hasValue) start (opening ++ d.tokens)
  else if atWord "const" ts then
    let (tokens, raw) ← constant rules true
    keptIf raw start (opening ++ tokens)
  else if atWord "mod" unqualified then read (moduleItem rules)
  else if atWord "type" ts then
    let d ← typeDeclaration rules true false
    keptIf (d.hasColon || !d.hasValue) start (opening ++ d.tokens)
  else if atWord "struct" ts then read (structItem rules)
  else if atWord "enum" ts then
    read do
      let named := (← next) ++ (← name) ++ (← genericParameters rules) ++ (← whereClause rules)
      return named ++ (← inside .brace (commaSeparatedItems (variant rules)))
  else if atWord "union" ts && atName (ts.drop 1) then
    read do
      let named := (← next) ++ (← name) ++ (← genericParameters rules) ++ (← whereClause rules)
      return named ++ (← namedFields rules)
  else if atWord "trait" (skipWord "auto" unqualified) then read (traitDefinition rules)
  else if atWord "impl" unqualified || atWord "default" ts && !atMark "!" (ts.drop 1) then
    let (tokens, raw) ← implementation rules
    keptIf (raw || visible) start (opening ++ tokens)
  else if atWord "macro" ts then keptIf true start (← ruleDefinition)
  else read itemInvocation

def item : Reader Piece := do
  let start ← get
  itemAfter rules start (← outerAttributes rules)

/-- What a trait does not allow is kept as it was read. -/
def traitItem : Reader Piece := do
  let start ← get
  let attributes ← outerAttributes rules
  let qualified := !((← visibility) ++ (← optionalWord "default")).isEmpty
  let ts ← get
  if atSignature false ts then
    let declared ← signature rules
    let body ← if ← peek (atMark ";") then mark ";" else rules.block
    keptIf qualified start (attributes ++ declared ++ body)
  else if atWord "const" ts then
    let (tokens, raw) ← constant rules false
    keptIf (raw || qualified) start (attributes ++ tokens)
  else if atWord "type" ts then
    let d ← typeDeclaration rules false true
    keptIf qualified start (attributes ++ d.tokens)
  else return ⟨attributes ++ (← itemInvocation), .ordinary⟩

def implementationItem : Reader Piece := do
  let start ← get
  let attributes ← outerAttributes rules
  let opening := attributes ++ (← visibility) ++
    (← onlyIf (fun ts => atWord "default" ts && !atMark "!" (ts.drop 1)) next)
  let ts ← get
  if atSignature false ts then
    let declared ← signature rules
    let omitted ← peek (atMark ";")
    let body ← if omitted then mark ";" else rules.block
    keptIf omitted start (opening ++ declared ++ body)
  else if atWord "const" ts then
    let (tokens, raw) ← constant rules true
    keptIf raw start (opening ++ tokens)
  else if atWord "type" ts then
    let d ← typeDeclaration rules false true
    keptIf (d.hasColon || !d.hasValue) start (opening ++ d.tokens)
  else return ⟨opening ++ (← itemInvocation), .ordinary⟩

def foreignItem : Reader Piece := do
  let start ← get
  let opening := (← outerAttributes rules) ++ (← visibility)
  let ts ← get
  if atSignature true ts then
    let safe := atWord "safe" (skipWord "async" (skipWord "const" ts))
    let declared ← signature rules
    let omitted ← peek (atMark ";")
    let body ← if omitted then mark ";" else rules.block
    keptIf (safe || !omitted) start (opening ++ declared ++ body)
  else if atWord "static" ts || atOneOf ["unsafe", "safe"] ts && atWord "static" (ts.drop 1) then
    let qualifier ← onlyIf (atOneOf ["unsafe", "safe"]) next
    let d ← staticDeclaration rules
    keptIf (!qualifier.isEmpty || d.hasValue) start (opening ++ d.tokens)
  else if atWord "type" ts then
    let d ← typeDeclaration rules true true
    keptIf (d.hasColon || d.hasValue) start (opening ++ d.tokens)
  else return ⟨opening ++ (← itemInvocation), .ordinary⟩

end PCode.ErrorType.Grammar
