import PCode.ErrorType.Description
import PCode.ErrorType.Problem
/-!
The cases of an error type, one for each variant, or one for a type that has none, with the message
and the underlying error that their attributes declare.
-/

namespace PCode.ErrorType

/-- `variant` is none if the type itself is the case. -/
structure Case (τ : Type) where
  typeName : String
  variant : Option String
  attributes : List Attribute
  fields : Fields τ
  deriving DecidableEq

/-- The field that holds the underlying error, which may also convert into the type. -/
structure Source (τ : Type) where
  index : Nat
  type : τ
  converts : Bool
  deriving DecidableEq

variable {γ τ : Type}

def Description.cases (d : Description γ τ) : Except Problem (List (Case τ)) :=
  match d.body with
  | .variants vs => .ok (vs.map fun v => ⟨d.name, some v.name, v.attributes, v.fields⟩)
  | .fields fields => .ok [⟨d.name, none, d.attributes, fields⟩]
  | .union => .error .unionUnsupported

namespace Case

def owner (c : Case τ) : String :=
  match c.variant with
  | some name => s!"variant \x60{name}\x60"
  | none => s!"type \x60{c.typeName}\x60"

variable (lib : Library γ τ)

/-- A message attribute holds one string literal and nothing else. -/
def messageOfForm : Attribute.Form → Except Problem String
  | .list tokens =>
    match lib.literal? tokens with
    | some (.text value) => .ok value
    | some .other => .error .messageNotText
    | none => .error .messageUnreadable
  | _ => .error .messageForm

/-- The first message attribute decides. -/
def message (c : Case τ) : Except Problem String :=
  match c.attributes.find? fun a => lib.isIdent a.path "error" with
  | some a => messageOfForm lib a.form
  | none => .error (.messageMissing c.owner)

def converts (f : Field τ) : Bool := f.attributes.any fun a => lib.isIdent a.path "from"

def isSource (f : Field τ) : Bool :=
  converts lib f || f.attributes.any fun a => lib.isIdent a.path "source"

/-- Goes through the fields from position `index`. The first field that breaks a rule decides. -/
def findSource (count index : Nat) (found : Option (Source τ)) :
    List (Field τ) → Except Problem (Option (Source τ))
  | [] => .ok found
  | f :: fs =>
    if !isSource lib f then findSource count (index + 1) found fs
    else if found.isSome then .error .severalSources
    else if converts lib f && count != 1 then .error .conversionNotAlone
    else findSource count (index + 1) (some ⟨index, f.type, converts lib f⟩) fs

def source (c : Case τ) : Except Problem (Option (Source τ)) :=
  findSource lib c.fields.toList.length 0 none c.fields.toList

end Case
end PCode.ErrorType
