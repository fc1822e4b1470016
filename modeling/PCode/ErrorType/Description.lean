import PCode.ErrorType.Library
/-!
What a program says of an error type: its cases, their fields, and the attributes that carry the
messages and mark the underlying errors.
-/

namespace PCode.ErrorType

inductive Attribute.Form where
  | path
  | list (tokens : List Token)
  | value (tokens : List Token)
  deriving DecidableEq

structure Attribute where
  path : List Token
  form : Attribute.Form
  deriving DecidableEq

structure Field (τ : Type) where
  type : τ
  attributes : List Attribute
  deriving DecidableEq

inductive Fields (τ : Type) where
  | unit
  | tuple (fields : List (Field τ))
  | named (fields : List (String × Field τ))
  deriving DecidableEq

/-- The fields in order, without their names. -/
def Fields.toList {τ : Type} : Fields τ → List (Field τ)
  | unit => []
  | tuple fields => fields
  | named fields => fields.map Prod.snd

structure Variant (τ : Type) where
  name : String
  attributes : List Attribute
  fields : Fields τ
  deriving DecidableEq

inductive Body (τ : Type) where
  | variants (variants : List (Variant τ))
  | fields (fields : Fields τ)
  | union
  deriving DecidableEq

structure Description (γ τ : Type) where
  name : String
  attributes : List Attribute
  generics : γ
  body : Body τ
  deriving DecidableEq

end PCode.ErrorType
