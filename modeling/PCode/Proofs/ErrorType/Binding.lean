import PCode.ErrorType.Expansion
import PCode.Proofs.ErrorType.Rendering
import Mathlib.Data.List.Nodup
/-!
What the display arm of a case binds and hands on, for any message: the fields that the search finds in the
template, in the order of the fields.
-/

namespace PCode.ErrorType

open Template

variable {α τ : Type}

namespace Fields

/-- What a placeholder calls the fields by. -/
def keys : Fields τ → List (List Char)
  | unit => []
  | tuple fields => (List.range fields.length).map (Nat.toDigits 10)
  | named fields => fields.map fun f => f.1.toList

/-- The variable that stands for a field in the arm. -/
def label : Fields τ → List Char → List Char
  | tuple _, key => 'f' :: key
  | _, key => key

/-- The names of fields are identifiers, no two the same. -/
def WellNamed : Fields τ → Prop
  | named fields => (fields.map fun f => f.1.toList).Nodup ∧ ∀ f ∈ fields, Bare f.1.toList
  | _ => True

variable {fields : Fields τ} {key : List Char}

theorem label_injective (fields : Fields τ) : Function.Injective fields.label := by
  cases fields with
  | tuple => exact List.cons_injective
  | unit | named => exact Function.injective_id

theorem bare_label (h : Bare key) : Bare (fields.label key) := by
  cases fields with
  | tuple => exact List.forall_mem_cons.mpr ⟨by decide, h⟩
  | unit | named => exact h

theorem bare_digits (i : Nat) : Bare (Nat.toDigits 10 i) := by
  intro c hc h
  have digit := (Numeral.isDigits_toDigits i).2 c hc
  have table : ['\x7b', '\x7d', ':'].all fun c => decide ¬c.isDigit := by decide
  exact of_decide_eq_true (List.all_eq_true.mp table c h) digit

theorem WellNamed.nodup (h : fields.WellNamed) : fields.keys.Nodup := by
  cases fields with
  | unit => exact List.nodup_nil
  | tuple fields => exact List.Nodup.map Numeral.toDigits_injective List.nodup_range
  | named fields => exact h.1

theorem WellNamed.bare (h : fields.WellNamed) : ∀ key ∈ fields.keys, Bare key := by
  cases fields with
  | unit => simp [keys]
  | tuple fields => simpa [keys] using fun i _ => bare_digits i
  | named fields => exact List.forall_mem_map.mpr h.2

theorem WellNamed.ended (h : fields.WellNamed) : ∀ head ∈ fields.keys.flatMap ends, Ended head := by
  intro head mem
  obtain ⟨key, hk, mem⟩ := List.mem_flatMap.mp mem
  exact ended_of_mem_ends (h.bare key hk) mem

end Fields

def select (names : List (List Char)) (args : Arguments α) : Arguments α :=
  names.filterMap fun name => (args.lookup name).map fun v => (name, v)

/-- What a pattern binds if it is matched against the values of the fields. -/
def Pattern.bindings (keys : List (List Char)) (values : List α) : Pattern → Arguments α
  | unit => []
  | tuple slots => (slots.zip values).filterMap fun (slot, v) => slot.map fun name => (name.toList, v)
  | named fields => fields.filterMap fun (field, name) =>
    ((keys.zip values).lookup field.toList).map fun v => ((name.getD field).toList, v)

/-- Each argument is the variable of its name. -/
def DisplayArm.environment (arm : DisplayArm) (keys : List (List Char)) (values : List α) : Arguments α :=
  select (arm.arguments.map String.toList) (arm.pattern.bindings keys values)

theorem select_filter {args : Arguments α} (nodup : (args.map Prod.fst).Nodup) (p : List Char → Bool) :
    select ((args.map Prod.fst).filter p) args = args.filter fun arg => p arg.1 := by
  induction args with
  | nil => rfl
  | cons arg args ih =>
    obtain ⟨name, v⟩ := arg
    rw [List.map_cons, List.nodup_cons] at nodup
    have later : select ((args.map Prod.fst).filter p) ((name, v) :: args) =
        select ((args.map Prod.fst).filter p) args := by
      apply List.filterMap_congr
      intro other mem
      have apart : (other == name) = false := by
        apply beq_false_of_ne
        rintro rfl
        exact nodup.1 (List.mem_of_mem_filter mem)
      rw [List.lookup_cons, apart]
    by_cases kept : p name
    · simp only [select] at later ih
      simp [select, kept, later, ih nodup.2]
    · simp [kept, later, ih nodup.2]

theorem select_self {args : Arguments α} (nodup : (args.map Prod.fst).Nodup) : select (args.map Prod.fst) args = args := by
  simpa using select_filter nodup fun _ => true

variable {c : Case τ} {message : String} {values : List α}

def DisplayArm.uses (arm : DisplayArm) (fields : Fields τ) (key : List Char) : Bool :=
  mentions arm.template.toList (String.ofList (fields.label key))

theorem filterMap_ite {β γ : Type} (p : β → Bool) (g : β → γ) (l : List β) :
    (l.filterMap fun x => if p x then some (g x) else none) = (l.filter p).map g := by
  induction l with
  | nil => rfl
  | cons x l ih => by_cases h : p x <;> simp [h, ih]

theorem positional_eq (i : Nat) : positional i = String.ofList ('f' :: Nat.toDigits 10 i) := by
  apply String.toList_injective
  simp [positional]
  rfl

def DisplayArm.slot (arm : DisplayArm) (fields : Fields τ) (key : List Char) : Option String :=
  if arm.uses fields key then some (String.ofList (fields.label key)) else none

theorem slots_eq {fields : List (Field τ)} (h : c.fields = .tuple fields) :
    (DisplayArm.ofCase c message).pattern = .tuple (c.fields.keys.map ((DisplayArm.ofCase c message).slot c.fields)) ∧
      (DisplayArm.ofCase c message).arguments =
        (c.fields.keys.map ((DisplayArm.ofCase c message).slot c.fields)).filterMap id := by
  simp [DisplayArm.ofCase, h, Fields.keys, DisplayArm.slot, DisplayArm.uses, Fields.label, positional_eq]

theorem arguments_ofCase (c : Case τ) (message : String) : (DisplayArm.ofCase c message).arguments.map String.toList =
    (c.fields.keys.filter ((DisplayArm.ofCase c message).uses c.fields)).map c.fields.label := by
  cases h : c.fields with
  | unit => simp [DisplayArm.ofCase, h, Fields.keys]
  | tuple fields =>
    have used : c.fields.keys.filterMap ((DisplayArm.ofCase c message).slot c.fields) =
        (c.fields.keys.filter ((DisplayArm.ofCase c message).uses c.fields)).map fun key =>
          String.ofList (c.fields.label key) := filterMap_ite _ _ _
    rw [(slots_eq h).2, List.filterMap_map, Function.id_comp, used, ← h, List.map_map]
    apply List.map_congr_left
    intro key _
    exact String.toList_ofList
  | named fields =>
    simp [DisplayArm.ofCase, h, Fields.keys, Fields.label, DisplayArm.uses, List.filter_map, Function.comp_def]

theorem bindings_ofCase (message : String) (nodup : c.fields.keys.Nodup) (h : values.length = c.fields.keys.length) :
    (DisplayArm.ofCase c message).pattern.bindings c.fields.keys values =
      ((c.fields.keys.zip values).filter fun arg => (DisplayArm.ofCase c message).uses c.fields arg.1).map
        (Prod.map c.fields.label id) := by
  cases hf : c.fields with
  | unit => simp [DisplayArm.ofCase, hf, Fields.keys, Pattern.bindings]
  | tuple fields =>
    rw [(slots_eq hf).1, hf]
    simp only [Pattern.bindings, List.zip_map_left, List.filterMap_map, ← filterMap_ite]
    apply List.filterMap_congr
    rintro ⟨key, v⟩ -
    by_cases used : (DisplayArm.ofCase c message).uses (.tuple fields) key <;> simp [DisplayArm.slot, used]
  | named fields =>
    have selected : (DisplayArm.ofCase c message).pattern.bindings (Fields.named fields).keys values =
        select ((DisplayArm.ofCase c message).arguments.map String.toList) ((Fields.named fields).keys.zip values) := by
      simp [DisplayArm.ofCase, hf, Pattern.bindings, select, List.filterMap_map]
    have label : (Fields.named fields).label = id := rfl
    rw [hf] at nodup h
    have fst : ((Fields.named fields).keys.zip values).map Prod.fst = (Fields.named fields).keys :=
      List.map_fst_zip h.ge
    rw [← fst] at nodup
    rw [selected, arguments_ofCase, hf, label, List.map_id, Prod.map_id, List.map_id, ← select_filter nodup, fst]

theorem environment_ofCase (message : String) (nodup : c.fields.keys.Nodup) (h : values.length = c.fields.keys.length) :
    (DisplayArm.ofCase c message).environment c.fields.keys values =
      (DisplayArm.ofCase c message).pattern.bindings c.fields.keys values := by
  have fst : (c.fields.keys.zip values).map Prod.fst = c.fields.keys := List.map_fst_zip h.ge
  have names : ((DisplayArm.ofCase c message).pattern.bindings c.fields.keys values).map Prod.fst =
      (DisplayArm.ofCase c message).arguments.map String.toList := by
    rw [bindings_ofCase message nodup h, arguments_ofCase]
    conv_rhs => rw [← fst]
    rw [List.filter_map, List.map_map, List.map_map]
    rfl
  rw [DisplayArm.environment, ← names, select_self]
  rw [names, arguments_ofCase]
  exact List.Nodup.map c.fields.label_injective (nodup.filter _)

end PCode.ErrorType
