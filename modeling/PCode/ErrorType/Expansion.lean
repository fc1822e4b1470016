import PCode.ErrorType.Case
import PCode.ErrorType.Template
/-!
The implementations of an error type: one display arm a case, one source arm a case with an
underlying error, one conversion a case whose only field converts.
-/

namespace PCode.ErrorType

/-- What a pattern binds: a name for each slot it does not skip, or fields by name, each perhaps
under another name. -/
inductive Pattern where
  | unit
  | tuple (slots : List (Option String))
  | named (fields : List (String × Option String))
  deriving DecidableEq

structure DisplayArm where
  variant : Option String
  pattern : Pattern
  template : String
  arguments : List String
  deriving DecidableEq

structure SourceArm where
  variant : Option String
  pattern : Pattern
  deriving DecidableEq

/-- `field` is none for a field without a name. -/
structure Conversion (τ : Type) where
  type : τ
  variant : Option String
  field : Option String
  deriving DecidableEq

structure Expansion (τ : Type) where
  display : List DisplayArm := []
  sources : List SourceArm := []
  conversions : List (Conversion τ) := []
  deriving DecidableEq

variable {γ τ : Type}

namespace DisplayArm

/-- Positional fields go by their new names. Fields that the template does not mention are skipped. -/
def ofCase (c : Case τ) (message : String) : DisplayArm :=
  match c.fields with
  | .unit => ⟨c.variant, .unit, message, []⟩
  | .tuple fields =>
    let template := Template.rename fields.length message.toList
    let slots := (List.range fields.length).map fun i =>
      if Template.mentions template (Template.positional i) then some (Template.positional i)
      else none
    ⟨c.variant, .tuple slots, String.ofList template, slots.filterMap id⟩
  | .named fields =>
    let used := (fields.map Prod.fst).filter fun name => Template.mentions message.toList name
    ⟨c.variant, .named (used.map fun name => (name, none)), message, used⟩

end DisplayArm

namespace SourceArm

def binding : String := "__source"

def ofCase (c : Case τ) (s : Source τ) : SourceArm :=
  match c.fields with
  | .unit => ⟨c.variant, .unit⟩
  | .tuple fields =>
    ⟨c.variant, .tuple ((List.range fields.length).map fun i =>
      if i = s.index then some binding else none)⟩
  | .named fields =>
    ⟨c.variant, .named ((fields[s.index]?.map fun f => (f.1, some binding)).toList)⟩

end SourceArm

def Conversion.ofCase (c : Case τ) (s : Source τ) : Conversion τ where
  type := s.type
  variant := c.variant
  field := match c.fields with
    | .named fields => fields[s.index]?.map Prod.fst
    | _ => none

namespace Expansion

/-- The message of a case is checked before its source. -/
def ofCase (lib : Library γ τ) (c : Case τ) : Except Problem (Expansion τ) := do
  let message ← c.message lib
  let source ← c.source lib
  return {
    display := [DisplayArm.ofCase c message]
    sources := (source.map (SourceArm.ofCase c)).toList
    conversions := ((source.filter Source.converts).map (Conversion.ofCase c)).toList }

def append (a b : Expansion τ) : Expansion τ :=
  ⟨a.display ++ b.display, a.sources ++ b.sources, a.conversions ++ b.conversions⟩

def ofCases (lib : Library γ τ) : List (Case τ) → Except Problem (Expansion τ)
  | [] => .ok {}
  | c :: cs => do
    let first ← ofCase lib c
    let rest ← ofCases lib cs
    return first.append rest

def ofDescription (lib : Library γ τ) (d : Description γ τ) : Except Problem (Expansion τ) := do
  ofCases lib (← d.cases)

end Expansion
end PCode.ErrorType
