import PCode.Proofs.Text.Decimal
import PCode.Text.Padding
import Mathlib.Algebra.Group.Nat.Defs
import Mathlib.Order.Monotone.Basic
/-!
Texts that sort as numbers do. Digits in a column of fixed width do, and so do columns one after another,
as the number of which these are the places.
-/

namespace PCode.Text

variable {a b a' b' : List Char} {m n m' n' : Nat}

/-- Equally long texts for these numbers, in the order of the numbers. -/
structure Sorts (m n : Nat) (a b : List Char) : Prop where
  length : a.length = b.length
  lt_iff : a < b ↔ m < n
  eq_iff : a = b ↔ m = n

theorem append_lt_append_iff (h : a.length = b.length) : a ++ a' < b ++ b' ↔ a < b ∨ a = b ∧ a' < b' := by
  induction a generalizing b with
  | nil =>
    obtain rfl := List.length_eq_zero_iff.mp h.symm
    simp
  | cons c a ih =>
    cases b with
    | nil => cases h
    | cons d b =>
      rw [List.cons_append, List.cons_append, List.cons_lt_cons_iff, List.cons_lt_cons_iff,
        ih (Nat.succ.inj h), List.cons.injEq]
      tauto

theorem append_eq_append_iff (h : a.length = b.length) : a ++ a' = b ++ b' ↔ a = b ∧ a' = b' := by
  constructor
  · exact fun he => List.append_inj he h
  · rintro ⟨rfl, rfl⟩
    rfl

/-- What the low places hold does not carry into the high ones. -/
theorem Sorts.append {k : Nat} (high : Sorts m n a b) (low : Sorts m' n' a' b') (hm : m' < k) (hn : n' < k) :
    Sorts (m * k + m') (n * k + n') (a ++ a') (b ++ b') := by
  have carry {x y : Nat} (h : x < y) : x * k + k ≤ y * k := by
    rw [← Nat.succ_mul]
    exact Nat.mul_le_mul_right k h
  have order : (m * k + m' < n * k + n' ↔ m < n ∨ m = n ∧ m' < n') ∧ (m * k + m' = n * k + n' ↔ m = n ∧ m' = n') := by
    rcases Nat.lt_trichotomy m n with h | rfl | h
    · have := carry h
      omega
    · omega
    · have := carry h
      omega
  constructor
  · rw [List.length_append, List.length_append, high.length, low.length]
  · rw [append_lt_append_iff high.length, high.lt_iff, high.eq_iff, low.lt_iff, order.1]
  · rw [append_eq_append_iff high.length, high.eq_iff, low.eq_iff, order.2]

theorem Sorts.append_same (h : Sorts m n a b) (cs : List Char) : Sorts m n (a ++ cs) (b ++ cs) := by
  have same : Sorts 0 0 cs cs := ⟨rfl, by simp, by simp⟩
  simpa using h.append same Nat.one_pos Nat.one_pos

theorem Sorts.append_lt {s t : String} (h : Sorts m n s.toList t.toList) (lt : m < n) (s' t' : String) :
    s ++ s' < t ++ t' := by
  rw [String.lt_iff, String.toList_append, String.toList_append, append_lt_append_iff h.length]
  exact .inl (h.lt_iff.mpr lt)

theorem Sorts.of_strictMono {f : Nat → Nat} (hf : StrictMono f) (h : Sorts (f m) (f n) a b) : Sorts m n a b where
  length := h.length
  lt_iff := h.lt_iff.trans hf.lt_iff_lt
  eq_iff := h.eq_iff.trans hf.injective.eq_iff

theorem sorts_digit {c d : Char} (hc : c.isDigit) (hd : d.isDigit) :
    Sorts (Numeral.digit c) (Numeral.digit d) [c] [d] := by
  have hc := Numeral.toNat_of_isDigit hc
  have hd := Numeral.toNat_of_isDigit hd
  constructor
  · rfl
  · have lt : c < d ↔ c.toNat < d.toNat := Iff.rfl
    simp only [List.cons_lt_cons_iff, lt, Numeral.digit, List.not_lt_nil, and_false, or_false]
    omega
  · simp only [List.singleton_inj, ← Char.toNat_inj, Numeral.digit]
    omega

theorem ofDigitChars_cons_digit (c : Char) (cs : List Char) :
    Nat.ofDigitChars 10 (c :: cs) 0 = Numeral.digit c * 10 ^ cs.length + Nat.ofDigitChars 10 cs 0 := by
  rw [Nat.ofDigitChars_cons, Nat.ofDigitChars_eq_ofDigitChars_zero, Nat.mul_zero, Nat.zero_add, Nat.mul_comm]
  rfl

theorem ofDigitChars_lt (h : ∀ c ∈ a, c.isDigit) : Nat.ofDigitChars 10 a 0 < 10 ^ a.length := by
  induction a with
  | nil => decide
  | cons c a ih =>
    obtain ⟨hc, ha⟩ := List.forall_mem_cons.mp h
    have hd := Nat.mul_le_mul_right (10 ^ a.length) (Nat.le_of_lt_succ (Numeral.digit_lt hc))
    have := ih ha
    rw [ofDigitChars_cons_digit, List.length_cons, Nat.pow_succ]
    omega

theorem sorts_digits (ha : ∀ c ∈ a, c.isDigit) (hb : ∀ c ∈ b, c.isDigit) (h : a.length = b.length) :
    Sorts (Nat.ofDigitChars 10 a 0) (Nat.ofDigitChars 10 b 0) a b := by
  induction a generalizing b with
  | nil =>
    obtain rfl := List.length_eq_zero_iff.mp h.symm
    exact ⟨rfl, by simp, by simp⟩
  | cons c a ih =>
    cases b with
    | nil => cases h
    | cons d b =>
      obtain ⟨hc, ha⟩ := List.forall_mem_cons.mp ha
      obtain ⟨hd, hb⟩ := List.forall_mem_cons.mp hb
      have hl := Nat.succ.inj h
      have low := ofDigitChars_lt hb
      rw [← hl] at low
      rw [ofDigitChars_cons_digit, ofDigitChars_cons_digit, ← hl]
      exact (sorts_digit hc hd).append (ih ha hb hl) (ofDigitChars_lt ha) low

theorem length_zeroPadded {width : Nat} (hw : 0 < width) (hn : n < 10 ^ width) :
    (zeroPadded width n).toList.length = width := by
  have fits : (Nat.toDigits 10 n).length ≤ width := (Nat.length_toDigits_le_iff (by decide) hw).mpr hn
  simp only [zeroPadded, String.toList_ofList, List.length_append, List.length_replicate]
  omega

theorem sorts_zeroPadded {width : Nat} (hw : 0 < width) (hm : m < 10 ^ width) (hn : n < 10 ^ width) :
    Sorts m n (zeroPadded width m).toList (zeroPadded width n).toList := by
  have equal := (length_zeroPadded hw hm).trans (length_zeroPadded hw hn).symm
  simp only [zeroPadded, String.toList_ofList] at equal ⊢
  have h := sorts_digits (Numeral.isDigits_zeros _ m).2 (Numeral.isDigits_zeros _ n).2 equal
  rwa [← Numeral.magnitude, ← Numeral.magnitude, Numeral.magnitude_zeros, Numeral.magnitude_zeros] at h

/-- One more column of digits, one more place. -/
theorem Sorts.append_zeroPadded {width k : Nat} (high : Sorts m n a b) (hw : 0 < width) (hk : k ≤ 10 ^ width)
    (hm : m' < k) (hn : n' < k) : Sorts (m * k + m') (n * k + n')
      (a ++ (zeroPadded width m').toList) (b ++ (zeroPadded width n').toList) :=
  high.append (sorts_zeroPadded hw (Nat.lt_of_lt_of_le hm hk) (Nat.lt_of_lt_of_le hn hk)) hm hn

end PCode.Text
