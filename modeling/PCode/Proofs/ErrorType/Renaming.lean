import PCode.ErrorType.Template
import PCode.Proofs.Channel.Transcript
import PCode.Proofs.Text.Search
/-!
Positional placeholders renamed one index after another. The replacements do not get in each other's way, so that
all of them come to one pass over the template, which marks each brace by what follows it.
-/

namespace PCode.ErrorType.Template

variable {heads others : List (List Char)} {head cs s : List Char} {is : List Nat} {i j count : Nat}

def Follows (heads : List (List Char)) (cs : List Char) : Prop := ∃ head ∈ heads, head <+: cs

instance : Decidable (Follows heads cs) := inferInstanceAs (Decidable (∃ head ∈ heads, head <+: cs))

/-- An `f` goes behind each opening brace that one of the heads follows. -/
def marked (heads : List (List Char)) : List Char → List Char
  | [] => []
  | c :: cs => if c = '\x7b' ∧ Follows heads cs then '\x7b' :: 'f' :: marked heads cs else c :: marked heads cs

/-- A key with the end of a placeholder or the colon before a format. -/
def ends (key : List Char) : List (List Char) := [key ++ ['\x7d'], key ++ [':']]

def numerals (is : List Nat) : List (List Char) := is.flatMap fun i => ends (Nat.toDigits 10 i)

structure Plain (head : List Char) : Prop where
  unopened : '\x7b' ∉ head
  unmarked : ∀ cs, ¬head <+: 'f' :: cs

theorem marked_cons_of_ne {c : Char} (hc : c ≠ '\x7b') (cs : List Char) : marked heads (c :: cs) = c :: marked heads cs := by
  simp [marked, hc]

theorem marked_append (h : '\x7b' ∉ head) (cs : List Char) : marked heads (head ++ cs) = head ++ marked heads cs := by
  induction head with
  | nil => simp
  | cons c head ih =>
    simp only [List.mem_cons, not_or] at h
    rw [List.cons_append, marked_cons_of_ne (Ne.symm h.1), ih h.2, List.cons_append]

theorem prefix_marked_iff (h : '\x7b' ∉ head) : head <+: marked heads cs ↔ head <+: cs := by
  induction head generalizing cs with
  | nil => simp
  | cons d head ih =>
    simp only [List.mem_cons, not_or] at h
    cases cs with
    | nil => simp [marked]
    | cons c cs =>
      by_cases hc : c = '\x7b'
      · subst hc
        have apart : d ≠ '\x7b' := Ne.symm h.1
        unfold marked
        split_ifs <;> simp [List.cons_prefix_cons, apart]
      · rw [marked_cons_of_ne hc, List.cons_prefix_cons, List.cons_prefix_cons, ih h.2]

theorem follows_marked_iff (plain : ∀ head ∈ heads, Plain head) : Follows heads (marked others cs) ↔ Follows heads cs := by
  unfold Follows
  apply exists_congr
  intro head
  apply and_congr_right
  intro mem
  exact prefix_marked_iff (plain head mem).unopened

theorem follows_append_iff : Follows (heads ++ others) cs ↔ Follows heads cs ∨ Follows others cs := by
  simp [Follows, or_and_right, exists_or]

/-- What is marked already is not marked again, and no mark makes a head or breaks one. -/
theorem marked_marked (plain : ∀ head ∈ heads, Plain head) (s : List Char) :
    marked heads (marked others s) = marked (heads ++ others) s := by
  have unmarked (cs : List Char) : ¬Follows heads ('f' :: cs) := by
    rintro ⟨head, mem, h⟩
    exact (plain head mem).unmarked cs h
  induction s with
  | nil => rfl
  | cons c s ih =>
    by_cases hc : c = '\x7b'
    · subst hc
      by_cases second : Follows others s
      · have f : 'f' ≠ '\x7b' := by decide
        simp [marked, second, unmarked, follows_append_iff, ih]
      · by_cases first : Follows heads s <;>
          simp [marked, first, second, follows_append_iff, follows_marked_iff plain, ih]
    · rw [marked_cons_of_ne hc, marked_cons_of_ne hc, marked_cons_of_ne hc, ih]

theorem marked_congr (h : ∀ head, head ∈ heads ↔ head ∈ others) (s : List Char) : marked heads s = marked others s := by
  have same (cs : List Char) : Follows heads cs ↔ Follows others cs := by simp [Follows, h]
  induction s with
  | nil => rfl
  | cons c s ih => simp [marked, same, ih]

theorem replace_eq_marked (h : '\x7b' ∉ head) (s : List Char) :
    Text.replace ('\x7b' :: head) ('\x7b' :: 'f' :: head) s = marked [head] s := by
  induction s using Text.replace.induct ('\x7b' :: head) with
  | case1 => simp [Text.replace, marked]
  | case2 c cs found ih =>
    have hp := List.isPrefixOf_iff_prefix.mp found
    rw [List.cons_prefix_cons] at hp
    obtain ⟨rfl, rest, rfl⟩ := hp
    have follows : Follows [head] (head ++ rest) := by simp [Follows]
    have skip : (head ++ rest).drop (('\x7b' :: head).length - 1) = rest := by
      rw [List.length_cons, Nat.add_sub_cancel, List.drop_left]
    rw [skip] at ih
    rw [Text.replace, if_pos found, skip, ih, marked, if_pos ⟨rfl, follows⟩, marked_append h]
    simp
  | case3 c cs absent ih =>
    have unfollowed : ¬(c = '\x7b' ∧ Follows [head] cs) := by
      rintro ⟨rfl, _, mem, hp⟩
      rw [List.mem_singleton.mp mem] at hp
      exact absent (List.isPrefixOf_iff_prefix.mpr (List.cons_prefix_cons.mpr ⟨rfl, hp⟩))
    rw [Text.replace, if_neg absent, ih, marked, if_neg unfollowed]

theorem mem_numerals_iff : head ∈ numerals is ↔ ∃ i ∈ is, ∃ stop ∈ ['\x7d', ':'], head = Nat.toDigits 10 i ++ [stop] := by
  simp [numerals, ends]

theorem plain_numeral {stop : Char} (hs : stop ∈ ['\x7d', ':']) : Plain (Nat.toDigits 10 i ++ [stop]) := by
  obtain ⟨ne, digits⟩ := Numeral.isDigits_toDigits i
  constructor
  · have unopened : '\x7b' ∉ Nat.toDigits 10 i := fun h => absurd (digits _ h) (by decide)
    have apart : '\x7b' ≠ stop := by
      rintro rfl
      exact absurd hs (by decide)
    simp [unopened, apart]
  · intro cs
    obtain ⟨c, rest, h⟩ := List.exists_cons_of_ne_nil ne
    have hc := digits c (h ▸ List.mem_cons_self)
    have apart : c ≠ 'f' := by
      rintro rfl
      exact absurd hc (by decide)
    simp [h, List.cons_prefix_cons, apart]

theorem plain_of_mem_numerals (h : head ∈ numerals is) : Plain head := by
  obtain ⟨i, -, stop, hs, rfl⟩ := mem_numerals_iff.mp h
  exact plain_numeral hs

theorem renameAt_eq_marked (i : Nat) (s : List Char) : renameAt i s = marked (numerals [i]) s := by
  have unopened (stop : Char) (hs : stop ∈ ['\x7d', ':']) : '\x7b' ∉ Nat.toDigits 10 i ++ [stop] :=
    (plain_numeral hs).unopened
  have first := replace_eq_marked (unopened '\x7d' (by decide)) s
  have second := replace_eq_marked (unopened ':' (by decide)) (marked [Nat.toDigits 10 i ++ ['\x7d']] s)
  have plain : ∀ head ∈ [Nat.toDigits 10 i ++ [':']], Plain head := by simpa using plain_numeral (by decide)
  rw [marked_marked plain] at second
  refine Eq.trans ?_ (second.trans (marked_congr ?_ s))
  · rw [← first]
    rfl
  · simp [numerals, ends, or_comm]

theorem marked_nil (s : List Char) : marked [] s = s := by
  induction s with
  | nil => rfl
  | cons c s ih => simp [marked, Follows, ih]

theorem foldl_renameAt (is : List Nat) (s : List Char) :
    is.foldl (fun s i => renameAt i s) s = marked (numerals is) s := by
  induction is using List.reverseRecOn with
  | nil => exact (marked_nil s).symm
  | append_singleton is i ih =>
    have plain : ∀ head ∈ numerals [i], Plain head := fun head => plain_of_mem_numerals
    rw [List.foldl_append, ih, List.foldl_cons, List.foldl_nil, renameAt_eq_marked, marked_marked plain]
    apply marked_congr
    intro head
    rw [List.mem_append, or_comm]
    simp [numerals]

theorem rename_eq_foldl (count : Nat) (s : List Char) :
    rename count s = (List.range count).reverse.foldl (fun s i => renameAt i s) s := by
  induction count generalizing s with
  | zero => rfl
  | succ count ih => simp [rename, ih, List.range_succ]

theorem foldl_renameAt_congr {js : List Nat} (h : ∀ i, i ∈ is ↔ i ∈ js) (s : List Char) :
    is.foldl (fun s i => renameAt i s) s = js.foldl (fun s i => renameAt i s) s := by
  rw [foldl_renameAt, foldl_renameAt]
  apply marked_congr
  simp [mem_numerals_iff, h]

theorem rename_eq_marked (count : Nat) (s : List Char) : rename count s = marked (numerals (List.range count)) s := by
  rw [rename_eq_foldl, ← foldl_renameAt]
  exact foldl_renameAt_congr (by simp) s

/-- A numeral runs up to its end, and so one brace is followed by one index at most. -/
theorem eq_of_follows (hi : Follows (numerals [i]) cs) (hj : Follows (numerals [j]) cs) : i = j := by
  simp only [Follows, mem_numerals_iff, List.mem_singleton] at hi hj
  obtain ⟨_, ⟨_, rfl, x, hx, rfl⟩, s, rfl⟩ := hi
  obtain ⟨_, ⟨_, rfl, y, hy, rfl⟩, t, h⟩ := hj
  have digits (k : Nat) : ∀ c ∈ Nat.toDigits 10 k, ¬¬c.isDigit := by simpa using (Numeral.isDigits_toDigits k).2
  have stop {c : Char} (hc : c ∈ ['\x7d', ':']) : ¬c.isDigit := by
    have table : ['\x7d', ':'].all fun c => decide ¬c.isDigit := by decide
    exact of_decide_eq_true (List.all_eq_true.mp table c hc)
  rw [← List.append_cons, ← List.append_cons, Text.append_stop_inj (digits _) (digits _) (stop hy) (stop hx)] at h
  exact (Numeral.toDigits_injective h.1).symm

/-- Renaming reads every placeholder as it stood in the beginning. -/
structure Simultaneous (rename : Nat → List Char → List Char) : Prop where
  eq_marked : ∀ count s, rename count s = marked (numerals (List.range count)) s
  ordered : ∀ count s (is : List Nat), (∀ i, i ∈ is ↔ i < count) →
    is.foldl (fun s i => renameAt i s) s = rename count s
  apart : ∀ i j cs, i ≠ j → ¬(Follows (numerals [i]) cs ∧ Follows (numerals [j]) cs)
  undisturbed : ∀ i j cs, Follows (numerals [j]) (renameAt i cs) ↔ Follows (numerals [j]) cs
  twice : ∀ count s, rename count (rename count s) = rename count s

theorem simultaneous_rename : Simultaneous rename := by
  constructor
  case eq_marked => exact rename_eq_marked
  case ordered =>
    intro count s is h
    rw [rename_eq_foldl]
    apply foldl_renameAt_congr
    simpa using h
  case apart =>
    rintro i j cs ne ⟨hi, hj⟩
    exact ne (eq_of_follows hi hj)
  case undisturbed =>
    intro i j cs
    rw [renameAt_eq_marked]
    exact follows_marked_iff fun head => plain_of_mem_numerals
  case twice =>
    intro count s
    rw [rename_eq_marked, rename_eq_marked, marked_marked fun head => plain_of_mem_numerals]
    apply marked_congr
    simp

end PCode.ErrorType.Template
