import PCode.ErrorType.Grammar.Reader
/-!
Attributes and calls of macros, whose arguments are kept as they were read.
-/

namespace PCode.ErrorType.Grammar

def atSimpleSegment (ts : List Tree) : Bool :=
  atName ts || atOneOf ["super", "self", "Self", "crate"] ts

/-- A path without arguments. -/
def simplePath : Reader (List Token) := do
  let leading ← optionalMark "::"
  let first ← segment
  return leading ++ first ++ (← repeatWhile (atMark "::") (do return (← mark "::") ++ (← segment)))
where
  segment : Reader (List Token) := do
    require atSimpleSegment
    next

variable (rules : Rules)

def attributeValue : Reader (List Token) := do
  if atLiteral (← get) then
    let (ts, rest) ← (literal.run (← get) : Option _)
    if rest.isEmpty then
      set rest
      return ts
  rules.tokens (.expression true)

/-- What stands in the brackets of an attribute. -/
def attributeContent : Reader (List Token) := do
  let path ← if ← peek (atWord "unsafe") then next else simplePath
  if ← peek atAnyGroup then return path ++ (← next)
  if ← peek (atMark "=") then return path ++ (← mark "=") ++ (← attributeValue rules)
  return path

def outerAttributes : Reader (List Token) :=
  repeatWhile (atMark "#") do
    return (← mark "#") ++ (← inside .bracket (attributeContent rules))

def innerAttributes : Reader (List Token) :=
  repeatWhile (fun ts => atMark "#" ts && atMark "!" (ts.drop 1)) do
    return (← mark "#") ++ (← mark "!") ++ (← inside .bracket (attributeContent rules))

/-- Whether a path is followed by the arguments of a call of a macro. -/
def atInvocation (ts : List Tree) : Bool := atMark "!" ts && !atMark "!=" ts

def invocation : Reader (List Token) := do return (← mark "!") ++ (← anyGroup)

end PCode.ErrorType.Grammar
