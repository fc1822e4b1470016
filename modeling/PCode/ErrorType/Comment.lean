import PCode.ErrorType.Token
/-!
Comments. A comment leaves no token, unless it documents something: then it stands for the attribute
with its text.
-/

namespace PCode.ErrorType.Comment

def lineLength : List Char → Nat
  | [] => 0
  | '\n' :: _ => 0
  | '\r' :: '\n' :: _ => 0
  | _ :: cs => 1 + lineLength cs

/-- Length up to the end of a block that has `depth` other blocks open inside it. -/
def blockLength : Nat → List Char → Nat
  | _, [] => 0
  | depth, '/' :: '*' :: cs => 2 + blockLength (depth + 1) cs
  | 0, '*' :: '/' :: _ => 2
  | depth + 1, '*' :: '/' :: cs => 2 + blockLength depth cs
  | depth, _ :: cs => 1 + blockLength depth cs

def documentation (value : List Char) : List Token :=
  [.mark '[', .word "doc", .mark '=', .text (String.ofList value), .mark ']']

def outer (value : List Char) : List Token := .mark '#' :: documentation value

def inner (value : List Char) : List Token := .mark '#' :: .mark '!' :: documentation value

/-- The tokens of a line comment with this content after its two slashes. A third slash documents, a
fourth does not. -/
def lineTokens (content : List Char) : List Token :=
  match content with
  | '/' :: '/' :: _ => []
  | '/' :: value => outer value
  | '!' :: value => inner value
  | _ => []

/-- The tokens of a block comment, from after its opening mark. A second star documents, but neither
two more stars nor an empty block do. -/
def blockTokens (cs : List Char) : List Token :=
  let content := cs.take (blockLength 0 cs - 2)
  match cs with
  | '*' :: '*' :: _ => []
  | '*' :: '/' :: _ => []
  | '*' :: _ => outer (content.drop 1)
  | '!' :: _ => inner (content.drop 1)
  | _ => []

def first? : List Char → Option (List Token × Nat)
  | '/' :: '/' :: cs => some (lineTokens (cs.take (lineLength cs)), 2 + lineLength cs)
  | '/' :: '*' :: cs => some (blockTokens cs, 2 + blockLength 0 cs)
  | _ => none

end PCode.ErrorType.Comment
