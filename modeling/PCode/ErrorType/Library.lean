import PCode.ErrorType.Token
/-!
What is needed of the library that reads the source of an error type and writes parts of it out
again.
-/

namespace PCode.ErrorType

/-- What a token list that is one literal stands for. Only a text is looked into. -/
inductive Literal where
  | text (value : String)
  | other
  deriving DecidableEq

/-- The generics of a type, split for the head of an implementation. -/
structure Split where
  parameters : List Token
  arguments : List Token
  whereClause : List Token
  deriving DecidableEq

/-- `γ` are the generics of a type, `τ` the types of its fields. `isIdent` says whether a path is
one name and nothing else, `literal?` reads a token list as one literal. -/
structure Library (γ τ : Type) where
  isIdent : List Token → String → Bool
  literal? : List Token → Option Literal
  typeTokens : τ → List Token
  split : γ → Split

end PCode.ErrorType
