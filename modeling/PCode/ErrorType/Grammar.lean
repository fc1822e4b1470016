import PCode.ErrorType.Grammar.Statement
import PCode.ErrorType.Library
/-!
The library that error types are read and written with: attributes as tokens, types, bounds and
predicates as pieces of source text, which are written out in the form the grammar gives them.
-/

namespace PCode.ErrorType

namespace Grammar

/-- The number bounds the depth of the recursion. -/
def read : Nat → Rules
  | 0, _ => failure
  | n + 1, .type plus => type (read n) plus
  | n + 1, .bound => bound (read n)
  | n + 1, .pattern => pattern (read n)
  | n + 1, .operand structs => operand (read n) structs
  | n + 1, .expression structs => expression (read n) structs
  | n + 1, .statementExpression => statementExpression (read n)
  | n + 1, .statements => ordinary (statements (read n))
  | n + 1, .item => item (read n)
  | n + 1, .traitItem => traitItem (read n)
  | n + 1, .implementationItem => implementationItem (read n)
  | n + 1, .foreignItem => foreignItem (read n)

/-- Few rules in a row read no token. What cannot be read stays as it is. -/
def written (r : Rules → Reader (List Token)) (trees : List Tree) : List Token :=
  let tokens := Tree.listTokens trees
  match (r (read (4 * (tokens.length + 1)))).run trees with
  | some (ts, []) => ts
  | _ => tokens

end Grammar

namespace Token

open Grammar

def ofType (pieces : List String) : List Token :=
  written (·.tokens (.type true)) (Tree.ofSource (joined pieces))

def ofBounds (pieces : List String) : List Token :=
  written (bounds · List.isEmpty) (Tree.ofSource (joined pieces))

def ofPredicates (pieces : List String) : List Token :=
  written predicates (Tree.ofSource (joined pieces))

end Token

namespace Grammar

structure TypeParameter where
  name : String
  bounds : List String
  deriving DecidableEq

/-- `predicates` are those of the where clause. -/
structure Generics where
  lifetimes : List String := []
  types : List TypeParameter := []
  predicates : List String := []
  deriving DecidableEq

namespace Generics

def angled (items : List (List Token)) : List Token :=
  if items.isEmpty then [] else .mark '<' :: Token.commaSeparated items ++ [.mark '>']

def parameters (g : Generics) : List Token :=
  angled (g.lifetimes.map Token.lifetime ++ g.types.map fun t =>
    let bounds := Token.ofBounds t.bounds
    .word t.name :: if bounds.isEmpty then [] else .mark ':' :: bounds)

def arguments (g : Generics) : List Token :=
  angled (g.lifetimes.map Token.lifetime ++ g.types.map fun t => [.word t.name])

def whereClause (g : Generics) : List Token :=
  let predicates := Token.ofPredicates g.predicates
  if predicates.isEmpty then [] else .word "where" :: predicates

end Generics

/-- A number may have a minus sign. -/
def literal? : List Token → Option Literal
  | [.text value] => some (.text value)
  | [.literal _] => some .other
  | [.word "true"] => some .other
  | [.word "false"] => some .other
  | [.mark '-', .literal source] => if Token.isNumber source then some .other else none
  | _ => none

def library : Library Generics (List String) where
  isIdent path name := path = [.word name]
  literal? := literal?
  typeTokens := Token.ofType
  split g := ⟨g.parameters, g.arguments, g.whereClause⟩

end Grammar
end PCode.ErrorType
