import PCode.Program
import PCode.Proofs.Channel.Transcript
import PCode.Proofs.Instruction.Codec
import PCode.Proofs.Text.Search
/-!
What a listing tells about its program. The lines can be told apart, and a line shows the instruction that its
triple decodes to; only of a triple that decodes to none does it show the raw text.
-/

namespace PCode

/-- What a line of assembly text is made of. -/
structure Columns where
  mnemonic : String
  level : String
  operand : String

namespace Columns

structure Solid (c : Columns) : Prop where
  mnemonic : Text.Solid c.mnemonic.toList
  level : Text.Solid c.level.toList
  operand : Text.Solid c.operand.toList

def text (c : Columns) : String := c.mnemonic ++ " " ++ c.level ++ " " ++ c.operand

variable {c d : Columns}

theorem toList_text (c : Columns) :
    c.text.toList = c.mnemonic.toList ++ ' ' :: (c.level.toList ++ ' ' :: c.operand.toList) := by
  simp [text, String.toList_append]

theorem words_text (h : c.Solid) :
    Text.words c.text.toList = [c.mnemonic.toList, c.level.toList, c.operand.toList] := by
  have blank : Text.isBlank ' ' := by decide
  rw [toList_text, Text.words_append_cons blank, Text.words_append_cons blank, Text.words_of_solid h.mnemonic,
    Text.words_of_solid h.level, Text.words_of_solid h.operand]
  simp

theorem text_inj (hc : c.Solid) (hd : d.Solid) : c.text = d.text ↔ c = d := by
  constructor
  · intro h
    have hw := words_text hc
    rw [h, words_text hd] at hw
    obtain ⟨mnemonic, level, operand⟩ := c
    simp only [List.cons.injEq, String.toList_inj, and_true] at hw
    obtain ⟨rfl, rfl, rfl⟩ := hw
    rfl
  · rintro rfl
    rfl

theorem newline_notMem_text (h : c.Solid) : '\n' ∉ c.text.toList := by
  have unbroken {cs : List Char} (h : Text.Solid cs) : '\n' ∉ cs := fun hm => absurd (h.2 '\n' hm) (by decide)
  simp [toList_text, unbroken h.mnemonic, unbroken h.level, unbroken h.operand]

end Columns

/-- A blank-free text in which some character can be no part of a numeral. -/
def IsName (s : String) : Prop := Text.Solid s.toList ∧ ∃ c ∈ s.toList, ¬(c ∈ ['+', '-'] ∨ c.isDigit)

theorem IsName.ne_toString {s : String} (h : IsName s) (w : Word) : s ≠ toString w := by
  rintro rfl
  obtain ⟨-, c, hc, hn⟩ := h
  exact hn ((spells_numeral w).sign_or_digit hc)

theorem solid_of_all {cs : List Char} (ne : cs ≠ []) (h : cs.all fun c => !Text.isBlank c) : Text.Solid cs :=
  ⟨ne, List.all_eq_true.mp h⟩

theorem isName_of_any {s : String} (solid : Text.Solid s.toList)
    (h : s.toList.any fun c => decide ¬(c ∈ ['+', '-'] ∨ c.isDigit)) : IsName s := by
  obtain ⟨c, hc, other⟩ := List.any_eq_true.mp h
  exact ⟨solid, c, hc, of_decide_eq_true other⟩

theorem OpCode.isName_mnemonic (op : OpCode) : IsName op.mnemonic := by
  cases op <;> exact isName_of_any (solid_of_all (by decide) (by decide)) (by decide)

theorem Operation.isName_mnemonic (op : Operation) : IsName op.mnemonic := by
  rcases op with _ | op | op <;> try cases op
  all_goals exact isName_of_any (solid_of_all (by decide) (by decide)) (by decide)

theorem Service.isName_mnemonic (s : Service) : IsName s.mnemonic := by
  cases s <;> exact isName_of_any (solid_of_all (by decide) (by decide)) (by decide)

theorem OpCode.mnemonic_inj {a b : OpCode} : a.mnemonic = b.mnemonic ↔ a = b := by
  cases a <;> cases b <;> decide

theorem Operation.mnemonic_inj {a b : Operation} : a.mnemonic = b.mnemonic ↔ a = b := by
  have table : ∀ a ∈ all, ∀ b ∈ all, a.mnemonic = b.mnemonic ↔ a = b := by decide
  have complete (op : Operation) : op ∈ all := by
    rcases op with _ | op | op <;> try cases op
    all_goals decide
  exact table a (complete a) b (complete b)

theorem Service.mnemonic_inj {a b : Service} : a.mnemonic = b.mnemonic ↔ a = b := by
  cases a <;> cases b <;> decide

theorem OpCode.name_value (op : OpCode) : name op.value = op.mnemonic := by
  rw [name, ofValue?_eq_some_iff.mpr rfl]

theorem OpCode.name_eq_mnemonic_iff {v : UInt8} {op : OpCode} : name v = op.mnemonic ↔ op.value = v := by
  unfold name
  cases h : ofValue? v with
  | none =>
    have unassigned : op.value ≠ v := by simp [← ofValue?_eq_some_iff, h]
    simp only [unassigned, iff_false]
    cases op <;> decide
  | some op' =>
    rw [mnemonic_inj, ← ofValue?_eq_some_iff, h, Option.some.injEq]

theorem OpCode.solid_name (v : UInt8) : Text.Solid (name v).toList := by
  unfold name
  split
  · exact (isName_mnemonic _).1
  · exact solid_of_all (by decide) (by decide)

namespace Instruction

def columns (i : Instruction) : Columns where
  mnemonic := i.opcode.mnemonic
  level := toString i.operands.1
  operand := match i with
    | .opr op => op.mnemonic
    | .sio service => service.mnemonic
    | i => toString i.operands.2

variable {i j : Instruction}

theorem text_columns (i : Instruction) : i.columns.text = i.text := by
  have middle (a b : String) : a ++ " " ++ toString (0 : Word) ++ " " ++ b = a ++ " 0 " ++ b := by
    have zero : toString (0 : Word) = "0" := rfl
    rw [zero, ← String.toList_inj]
    simp
  cases i with
  | opr op => exact middle OpCode.opr.mnemonic op.mnemonic
  | sio service => exact middle OpCode.sio.mnemonic service.mnemonic
  | _ => rfl

theorem solid_columns (i : Instruction) : i.columns.Solid := by
  refine ⟨(OpCode.isName_mnemonic _).1, solid_toString _, ?_⟩
  cases i with
  | opr op => exact (Operation.isName_mnemonic op).1
  | sio service => exact (Service.isName_mnemonic service).1
  | _ => exact solid_toString _

/-- Equal columns have equal opcodes, and then the operand says the rest. -/
theorem encode_eq_of_columns (h : i.columns = j.columns) : i.encode = j.encode := by
  simp only [columns, Columns.mk.injEq, OpCode.mnemonic_inj, toString_inj] at h
  obtain ⟨opcode, level, operand⟩ := h
  have address : i.operands.2 = j.operands.2 := by
    cases i <;> cases j <;> cases opcode
    case opr.opr => rw [Operation.mnemonic_inj.mp operand]
    case sio.sio => rw [Service.mnemonic_inj.mp operand]
    all_goals exact toString_inj.mp operand
  rw [encode, encode, opcode, level, address]

theorem text_inj (hi : i.Fits) (hj : j.Fits) : i.text = j.text ↔ i = j := by
  constructor
  · intro h
    rw [← text_columns, ← text_columns, Columns.text_inj i.solid_columns j.solid_columns] at h
    exact injOn_encode hi hj (encode_eq_of_columns h)
  · rintro rfl
    rfl

end Instruction

namespace Triple

def columns (t : Triple) : Columns := ⟨OpCode.name t.op, toString t.level, toString t.address⟩

variable {a b t : Triple} {i : Instruction}

theorem text_columns (t : Triple) : t.columns.text = t.text := rfl

theorem solid_columns (t : Triple) : t.columns.Solid := ⟨OpCode.solid_name _, solid_toString _, solid_toString _⟩

/-- The raw text of a triple reads like an instruction only if it is what the instruction is stored as. -/
theorem eq_encode_of_columns (h : t.columns = i.columns) : t = i.encode := by
  obtain ⟨v, level, address⟩ := t
  simp only [columns, Instruction.columns, Columns.mk.injEq, toString_inj, OpCode.name_eq_mnemonic_iff] at h
  obtain ⟨rfl, rfl, operand⟩ := h
  rw [Instruction.encode]
  congr 1
  cases i with
  | opr op => exact absurd operand.symm ((Operation.isName_mnemonic op).ne_toString address)
  | sio service => exact absurd operand.symm ((Service.isName_mnemonic service).ne_toString address)
  | _ => exact toString_inj.mp operand

theorem decode_of_text (fits : i.Fits) (h : t.text = i.text) : t.decode = .ok i := by
  rw [← text_columns, ← Instruction.text_columns, Columns.text_inj t.solid_columns i.solid_columns] at h
  rw [eq_encode_of_columns h]
  exact Instruction.decode_encode_eq_self_iff.mpr fits

/-- Both are the same instruction, or neither is one and both have the same raw text. -/
inductive Alike (a b : Triple) : Prop
  | decoded {i : Instruction} (ha : a.decode = .ok i) (hb : b.decode = .ok i)
  | undecoded {e e' : Error} (ha : a.decode = .error e) (hb : b.decode = .error e') (same : a.text = b.text)

/-- The columns of a listed line. -/
def shown (t : Triple) : Columns :=
  match t.decode with
  | .ok i => i.columns
  | .error _ => t.columns

theorem shown_of_ok (h : t.decode = .ok i) : t.shown = i.columns := by
  rw [shown, h]

theorem shown_of_error {e : Error} (h : t.decode = .error e) : t.shown = t.columns := by
  rw [shown, h]

theorem solid_shown (t : Triple) : t.shown.Solid := by
  cases h : t.decode with
  | ok i => rw [shown_of_ok h]; exact i.solid_columns
  | error e => rw [shown_of_error h]; exact t.solid_columns

theorem text_ne_of_decode {e : Error} (ha : a.decode = .ok i) (hb : b.decode = .error e) : b.text ≠ i.text := by
  intro h
  rw [decode_of_text (decode_eq_ok_iff.mp ha).1 h] at hb
  cases hb

theorem shown_text_eq_iff : a.shown.text = b.shown.text ↔ a.Alike b := by
  constructor
  · intro h
    cases ha : a.decode with
    | ok i =>
      cases hb : b.decode with
      | ok j =>
        rw [shown_of_ok ha, shown_of_ok hb, Instruction.text_columns, Instruction.text_columns,
          Instruction.text_inj (decode_eq_ok_iff.mp ha).1 (decode_eq_ok_iff.mp hb).1] at h
        exact .decoded ha (h ▸ hb)
      | error e =>
        rw [shown_of_ok ha, shown_of_error hb, Instruction.text_columns, text_columns] at h
        exact absurd h.symm (text_ne_of_decode ha hb)
    | error e =>
      cases hb : b.decode with
      | ok j =>
        rw [shown_of_error ha, shown_of_ok hb, Instruction.text_columns, text_columns] at h
        exact absurd h (text_ne_of_decode hb ha)
      | error e' =>
        rw [shown_of_error ha, shown_of_error hb, text_columns, text_columns] at h
        exact .undecoded ha hb h
  · intro h
    cases h with
    | decoded ha hb => rw [shown_of_ok ha, shown_of_ok hb]
    | undecoded ha hb same =>
      rw [shown_of_error ha, shown_of_error hb, text_columns, text_columns, same]

end Triple

namespace Program

theorem line_eq (index : Nat) (t : Triple) :
    line index t = Text.padLeft 4 (toString index) ++ "  " ++ t.shown.text ++ "\n" := by
  unfold line Triple.shown
  cases t.decode with
  | ok i => simp only [← i.text_columns]; rfl
  | error e => rfl

/-- The index is the same in both lines, so that it is what comes after it that tells them apart. -/
theorem line_append_inj {index : Nat} {t u : Triple} {r s : String} :
    line index t ++ r = line index u ++ s ↔ t.Alike u ∧ r = s := by
  rw [← Triple.shown_text_eq_iff, line_eq, line_eq, ← String.toList_inj]
  simp only [String.toList_append, List.append_assoc, List.append_cancel_left_eq]
  have line (v : Triple) : ∀ c ∈ v.shown.text.toList, c ≠ '\n' :=
    fun c hc h => Columns.newline_notMem_text v.solid_shown (h ▸ hc)
  have newline := Text.append_stop_inj (s := r.toList) (t := s.toList) (line t) (line u) rfl rfl
  simpa [String.toList_inj] using newline

theorem line_append_ne_empty {index : Nat} {t : Triple} {s : String} : line index t ++ s ≠ "" := by
  intro h
  have nonempty := congrArg String.toList h
  simp [line_eq] at nonempty

theorem join_lines_inj (index : Nat) (ts us : List Triple) :
    String.join (ts.mapIdx fun k => line (index + k)) = String.join (us.mapIdx fun k => line (index + k)) ↔
      List.Forall₂ Triple.Alike ts us := by
  induction ts generalizing index us with
  | nil =>
    cases us with
    | nil => simp
    | cons u us => simp [List.mapIdx_cons, String.join_cons, line_append_ne_empty.symm]
  | cons t ts ih =>
    have next : (fun k => line (index + (k + 1))) = fun k => line (index + 1 + k) := by
      funext k
      congr 1
      omega
    rw [List.mapIdx_cons, String.join_cons, next]
    cases us with
    | nil => simpa only [List.mapIdx_nil, String.join_nil, List.forall₂_nil_right_iff, reduceCtorEq, iff_false]
        using line_append_ne_empty
    | cons u us => rw [List.mapIdx_cons, String.join_cons, next, Nat.add_zero, line_append_inj, ih, List.forall₂_cons]

theorem listing_eq_iff {p q : Program} :
    p.listing = q.listing ↔ List.Forall₂ Triple.Alike p.code.toList q.code.toList := by
  have h := join_lines_inj 0 p.code.toList q.code.toList
  simp only [Nat.zero_add] at h
  exact h

theorem eq_of_listing_ofInstructions {is js : List Instruction} (his : ∀ i ∈ is, i.Fits) (hjs : ∀ j ∈ js, j.Fits)
    (h : (ofInstructions is).listing = (ofInstructions js).listing) : is = js := by
  rw [listing_eq_iff] at h
  simp only [ofInstructions, List.forall₂_map_left_iff, List.forall₂_map_right_iff] at h
  induction h with
  | nil => rfl
  | @cons i j is js alike _ ih =>
    obtain ⟨hi, his⟩ := List.forall_mem_cons.mp his
    obtain ⟨hj, hjs⟩ := List.forall_mem_cons.mp hjs
    rw [ih his hjs]
    have di := Instruction.decode_encode_eq_self_iff.mpr hi
    have dj := Instruction.decode_encode_eq_self_iff.mpr hj
    cases alike with
    | decoded ha hb =>
      obtain rfl := Except.ok.inj (di.symm.trans ha)
      obtain rfl := Except.ok.inj (dj.symm.trans hb)
      rfl
    | undecoded ha => rw [di] at ha; cases ha

/-- Programs are listed alike only if they decode alike. -/
structure Unambiguous (listing : Program → String) : Prop where
  eq_iff : ∀ p q : Program, listing p = listing q ↔
    p.length = q.length ∧ ∀ k t u, p.get? k = some t → q.get? k = some u → t.Alike u
  undecoded : ∀ (t u : Triple) i e, t.decode = .error e → u.decode = .ok i → t.text ≠ i.text
  ofInstructions : ∀ is js : List Instruction, (∀ i ∈ is, i.Fits) → (∀ j ∈ js, j.Fits) →
    listing (ofInstructions is) = listing (ofInstructions js) → is = js

theorem unambiguous_listing : Unambiguous listing := by
  constructor
  case eq_iff =>
    intro p q
    rw [listing_eq_iff, List.forall₂_iff_get]
    simp only [Array.length_toList, length, get?, List.get_eq_getElem, Array.getElem_toList]
    apply and_congr_right
    intro size
    constructor
    · intro h k t u ht hu
      obtain ⟨hk, rfl⟩ := Array.getElem?_eq_some_iff.mp ht
      obtain ⟨hk', rfl⟩ := Array.getElem?_eq_some_iff.mp hu
      exact h k hk hk'
    · intro h k hk hk'
      exact h k _ _ (Array.getElem?_eq_getElem hk) (Array.getElem?_eq_getElem hk')
  case undecoded => exact fun t u i e ht hu => Triple.text_ne_of_decode hu ht
  case ofInstructions => exact fun is js his hjs => eq_of_listing_ofInstructions his hjs

end Program
end PCode
