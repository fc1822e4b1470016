import PCode.Numeral
/-!
Decimal spellings of integers, and the words that can be read from them.
-/

namespace PCode.Numeral

variable {cs : List Char} {c : Char} {lo hi sign n : Int} {k : Nat}

def IsDigits (cs : List Char) : Prop := cs ≠ [] ∧ ∀ c ∈ cs, c.isDigit

def magnitude (cs : List Char) : Nat := Nat.ofDigitChars 10 cs 0

/-- One sign at most, then one or more digits. -/
inductive Spells : List Char → Int → Prop
  | plain {digits} (h : IsDigits digits) : Spells digits (magnitude digits)
  | plus {digits} (h : IsDigits digits) : Spells ('+' :: digits) (magnitude digits)
  | minus {digits} (h : IsDigits digits) : Spells ('-' :: digits) (-magnitude digits)

theorem not_isDigits_plus : ¬IsDigits ('+' :: cs) := by
  intro h
  exact absurd (h.2 '+' List.mem_cons_self) (by decide)

theorem not_isDigits_minus : ¬IsDigits ('-' :: cs) := by
  intro h
  exact absurd (h.2 '-' List.mem_cons_self) (by decide)

theorem spells_plus_iff : Spells ('+' :: cs) n ↔ IsDigits cs ∧ n = magnitude cs := by
  constructor
  · intro h
    cases h with
    | plain h => exact absurd h not_isDigits_plus
    | plus h => exact ⟨h, rfl⟩
  · rintro ⟨h, rfl⟩
    exact .plus h

theorem spells_minus_iff : Spells ('-' :: cs) n ↔ IsDigits cs ∧ n = -magnitude cs := by
  constructor
  · intro h
    cases h with
    | plain h => exact absurd h not_isDigits_minus
    | minus h => exact ⟨h, rfl⟩
  · rintro ⟨h, rfl⟩
    exact .minus h

theorem spells_iff_of_unsigned (hplus : ∀ ds, cs ≠ '+' :: ds) (hminus : ∀ ds, cs ≠ '-' :: ds) :
    Spells cs n ↔ IsDigits cs ∧ n = magnitude cs := by
  constructor
  · intro h
    cases h with
    | plain h => exact ⟨h, rfl⟩
    | plus => exact absurd rfl (hplus _)
    | minus => exact absurd rfl (hminus _)
  · rintro ⟨h, rfl⟩
    exact .plain h

theorem Spells.ne_nil (h : Spells cs n) : cs ≠ [] := by
  cases h with
  | plain h => exact h.1
  | plus => exact List.cons_ne_nil _ _
  | minus => exact List.cons_ne_nil _ _

theorem Spells.sign_or_digit (h : Spells cs n) (hc : c ∈ cs) : c ∈ ['+', '-'] ∨ c.isDigit := by
  cases h with
  | plain h => exact .inr (h.2 c hc)
  | plus h | minus h =>
    rcases List.mem_cons.mp hc with rfl | hc
    · simp
    · exact .inr (h.2 c hc)

theorem le_ofDigitChars (k : Nat) (cs : List Char) : k ≤ Nat.ofDigitChars 10 cs k := by
  rw [Nat.ofDigitChars_eq_ofDigitChars_zero]
  have := Nat.le_mul_of_pos_left k (Nat.pow_pos (a := 10) (n := cs.length) (by decide))
  omega

/-- A value out of bounds never comes back, so that all digits are read just if the last value is
within bounds. -/
theorem readDigits_eq_ok_iff (hlo : lo ≤ 0) (hhi : 0 ≤ hi) (hsign : sign = 1 ∨ sign = -1)
    (hk : lo ≤ sign * k ∧ sign * k ≤ hi) :
    readDigits lo hi sign (sign * k) cs = .ok n ↔
      (∀ c ∈ cs, c.isDigit) ∧ n = sign * Nat.ofDigitChars 10 cs k ∧ lo ≤ n ∧ n ≤ hi := by
  induction cs generalizing k with
  | nil =>
    simp only [readDigits, Except.ok.injEq, List.not_mem_nil, false_implies, implies_true, true_and,
      Nat.ofDigitChars_nil]
    constructor
    · rintro rfl
      exact ⟨rfl, hk⟩
    · rintro ⟨rfl, -⟩
      rfl
  | cons c cs ih =>
    have hnext : sign * (k : Int) * 10 + sign * digit c = sign * ((10 * k + digit c : Nat) : Int) := by
      rcases hsign with rfl | rfl <;> omega
    have hlast := le_ofDigitChars (10 * k + digit c) cs
    simp only [readDigits, hnext, List.forall_mem_cons, Nat.ofDigitChars_cons]
    change _ ↔ _ ∧ n = sign * (Nat.ofDigitChars 10 cs (10 * k + digit c) : Nat) ∧ _
    generalize 10 * k + digit c = m at hlast ⊢
    cases hc : c.isDigit with
    | false => simp
    | true =>
      simp only [Bool.not_true, Bool.false_eq_true, if_false, true_and]
      split
      next h =>
        simp only [reduceCtorEq, false_iff]
        rintro ⟨-, rfl, hn⟩
        rcases hsign with rfl | rfl <;> omega
      next hle =>
        split
        next h =>
          simp only [reduceCtorEq, false_iff]
          rintro ⟨-, rfl, hn⟩
          rcases hsign with rfl | rfl <;> omega
        next hge => exact ih ⟨by omega, by omega⟩

theorem readDigits_zero_eq_ok_iff (hlo : lo ≤ 0) (hhi : 0 ≤ hi) (hsign : sign = 1 ∨ sign = -1)
    (hcs : cs ≠ []) :
    readDigits lo hi sign 0 cs = .ok n ↔ (IsDigits cs ∧ n = sign * magnitude cs) ∧ lo ≤ n ∧ n ≤ hi := by
  have start : lo ≤ sign * (0 : Nat) ∧ sign * (0 : Nat) ≤ hi := by omega
  have h : readDigits lo hi sign (sign * (0 : Nat)) cs = .ok n ↔ _ := readDigits_eq_ok_iff hlo hhi hsign start
  rw [Int.natCast_zero, Int.mul_zero] at h
  rw [h, IsDigits, magnitude]
  constructor
  · rintro ⟨hd, hn, hb⟩
    exact ⟨⟨⟨hcs, hd⟩, hn⟩, hb⟩
  · rintro ⟨⟨⟨-, hd⟩, hn⟩, hb⟩
    exact ⟨hd, hn, hb⟩

theorem not_spells_sign (hc : c = '+' ∨ c = '-') : ¬Spells [c] n := by
  rcases hc with rfl | rfl
  · rw [spells_plus_iff]
    rintro ⟨h, -⟩
    exact h.1 rfl
  · rw [spells_minus_iff]
    rintro ⟨h, -⟩
    exact h.1 rfl

/-- A minus is read only where the bounds leave room for what it spells. -/
theorem read_eq_ok_iff (hlo : lo ≤ 0) (hhi : 0 ≤ hi) :
    read lo hi cs = .ok n ↔ (Spells cs n ∧ (cs.head? = some '-' → lo < 0)) ∧ lo ≤ n ∧ n ≤ hi := by
  unfold read
  split
  case h_1 =>
    simp only [reduceCtorEq, false_iff]
    exact fun h => h.1.1.ne_nil rfl
  case h_2 =>
    simp only [reduceCtorEq, false_iff]
    exact fun h => not_spells_sign (.inl rfl) h.1.1
  case h_3 =>
    simp only [reduceCtorEq, false_iff]
    exact fun h => not_spells_sign (.inr rfl) h.1.1
  case h_4 ds hds =>
    have hne : ds ≠ [] := fun h => hds (h ▸ rfl)
    rw [readDigits_zero_eq_ok_iff hlo hhi (.inl rfl) hne, spells_plus_iff, Int.one_mul]
    simp
  case h_5 ds hds =>
    have hne : ds ≠ [] := fun h => hds (h ▸ rfl)
    by_cases hminus : lo < 0
    · rw [if_pos hminus, readDigits_zero_eq_ok_iff hlo hhi (.inr rfl) hne, spells_minus_iff, Int.neg_one_mul]
      simp [hminus]
    · simp [hminus]
  case h_6 hnil _ _ hplus hminus =>
    have unsigned : cs.head? ≠ some '-' := by
      intro h
      obtain ⟨ds, rfl⟩ := List.head?_eq_some_iff.mp h
      exact hminus ds rfl
    rw [readDigits_zero_eq_ok_iff hlo hhi (.inl rfl) hnil, spells_iff_of_unsigned hplus hminus, Int.one_mul]
    simp [unsigned]

theorem readWord_eq_ok_iff {w : Word} : readWord cs = .ok w ↔ Spells cs w.toInt := by
  have bounds : Word.least < 0 ∧ 0 ≤ Word.greatest := by decide
  have value (m : Int) : read Word.least Word.greatest cs = .ok m ↔ _ :=
    read_eq_ok_iff (Int.le_of_lt bounds.1) bounds.2
  constructor
  · intro h
    unfold readWord at h
    cases hr : read Word.least Word.greatest cs with
    | error e =>
      rw [hr] at h
      cases h
    | ok m =>
      rw [hr] at h
      obtain rfl := Except.ok.inj h
      obtain ⟨⟨hm, -⟩, hb⟩ := (value m).mp hr
      rwa [Word.toInt_ofInt hb]
  · intro h
    have hr := (value _).mpr ⟨⟨h, fun _ => bounds.1⟩, Word.least_le w, Word.le_greatest w⟩
    rw [readWord, hr]
    exact congrArg Except.ok (Int64.ofInt_toInt w)

/-- Digits after a plus or no sign, of a number that 64 bits hold. -/
structure Counts (cs : List Char) (k : Nat) : Prop where
  spells : Spells cs k
  unsigned : cs.head? ≠ some '-'
  bound : k ≤ greatestCount

theorem readCount_eq_ok_iff : readCount cs = .ok k ↔ Counts cs k := by
  have value (m : Int) : read 0 greatestCount cs = .ok m ↔ _ := read_eq_ok_iff (Int.le_refl 0) (by decide)
  constructor
  · intro h
    unfold readCount at h
    cases hr : read 0 greatestCount cs with
    | error e =>
      rw [hr] at h
      cases h
    | ok m =>
      rw [hr] at h
      obtain rfl := Except.ok.inj h
      obtain ⟨⟨hm, unsigned⟩, hle, hb⟩ := (value m).mp hr
      rw [← Int.toNat_of_nonneg hle] at hm hb
      exact ⟨hm, fun minus => absurd (unsigned minus) (Int.lt_irrefl 0), hb⟩
  · intro h
    have hr := (value k).mpr ⟨⟨h.spells, fun minus => absurd minus h.unsigned⟩, Int.natCast_nonneg k, h.bound⟩
    rw [readCount, hr]
    rfl

end PCode.Numeral
