import PCode.Proofs.Channel.Transcript
import PCode.Proofs.Text.Margin
/-!
Decimals with zeros before them. Any digits are such a decimal, of the number that they come to.
-/

namespace PCode.Numeral

variable {cs digits : List Char} {c : Char} {k : Nat}

inductive Written (k : Nat) : List Char → Prop
  | plain (zeros : Nat) : Written k (List.replicate zeros '0' ++ Nat.toDigits 10 k)
  | plus (zeros : Nat) : Written k ('+' :: (List.replicate zeros '0' ++ Nat.toDigits 10 k))

theorem toNat_of_isDigit (h : c.isDigit) : 48 ≤ c.toNat ∧ c.toNat ≤ 57 := by
  rwa [Char.isDigit_iff_toNat] at h

theorem digit_lt (h : c.isDigit) : digit c < 10 := by
  have hc := toNat_of_isDigit h
  unfold digit
  omega

theorem digit_pos (h : c.isDigit) (hz : c ≠ '0') : 0 < digit c := by
  have hc := toNat_of_isDigit h
  have zero : c.toNat ≠ 48 := fun he => hz (Char.toNat_inj.mp he)
  unfold digit
  omega

theorem toDigits_digit (h : c.isDigit) : Nat.toDigits 10 (digit c) = [c] := by
  have hc := toNat_of_isDigit h
  have lt := digit_lt h
  rw [Nat.toDigits_of_lt_base lt, List.singleton_inj, ← Char.toNat_inj, Nat.toNat_digitChar_of_lt_ten lt]
  unfold digit
  omega

theorem toDigits_append (hk : 0 < k) (h : ∀ c ∈ cs, c.isDigit) :
    Nat.toDigits 10 k ++ cs = Nat.toDigits 10 (Nat.ofDigitChars 10 cs k) := by
  induction cs generalizing k with
  | nil => rw [List.append_nil, Nat.ofDigitChars_nil]
  | cons c cs ih =>
    obtain ⟨hc, hcs⟩ := List.forall_mem_cons.mp h
    have one := Nat.toDigits_append_toDigits (b := 10) (by decide) hk (digit_lt hc)
    rw [toDigits_digit hc] at one
    rw [List.append_cons, one, ih (by omega) hcs]
    rfl

/-- The zeros come off one by one, but one of them stays if there is nothing else. -/
theorem exists_zeros (h : IsDigits digits) :
    ∃ zeros, digits = List.replicate zeros '0' ++ Nat.toDigits 10 (magnitude digits) := by
  obtain ⟨hne, h⟩ := h
  induction digits with
  | nil => exact absurd rfl hne
  | cons c digits ih =>
    obtain ⟨hc, hds⟩ := List.forall_mem_cons.mp h
    have next : magnitude (c :: digits) = Nat.ofDigitChars 10 digits (digit c) := by
      rw [magnitude, Nat.ofDigitChars_cons, Nat.mul_zero, Nat.zero_add]
      rfl
    by_cases zero : c = '0'
    · subst zero
      by_cases last : digits = []
      · subst last
        exact ⟨0, rfl⟩
      · obtain ⟨zeros, hz⟩ := ih last hds
        have same : magnitude ('0' :: digits) = magnitude digits := next
        refine ⟨zeros + 1, ?_⟩
        rw [same, List.replicate_succ, List.cons_append, ← hz]
    · refine ⟨0, ?_⟩
      rw [next, ← toDigits_append (digit_pos hc zero) hds, toDigits_digit hc]
      rfl

theorem isDigits_zeros (zeros k : Nat) : IsDigits (List.replicate zeros '0' ++ Nat.toDigits 10 k) := by
  have hd := isDigits_toDigits k
  refine ⟨List.append_ne_nil_of_right_ne_nil _ hd.1, ?_⟩
  intro c hc
  rcases List.mem_append.mp hc with hc | hc
  · rw [List.eq_of_mem_replicate hc]
    rfl
  · exact hd.2 c hc

theorem magnitude_zeros (zeros k : Nat) : magnitude (List.replicate zeros '0' ++ Nat.toDigits 10 k) = k := by
  rw [magnitude, Nat.ofDigitChars_append, Nat.ofDigitChars_replicate_zero, Nat.mul_zero, Nat.ofDigitChars_ten_toDigits]

theorem counts_iff : Counts cs k ↔ Written k cs ∧ k ≤ greatestCount := by
  constructor
  · rintro ⟨spells, unsigned, bound⟩
    refine ⟨?_, bound⟩
    generalize hn : (k : Int) = n at spells
    cases spells with
    | plain h =>
      obtain ⟨zeros, hz⟩ := exists_zeros h
      obtain rfl := Int.ofNat.inj hn
      have written := Written.plain (k := magnitude cs) zeros
      rwa [← hz] at written
    | @plus digits h =>
      obtain ⟨zeros, hz⟩ := exists_zeros h
      obtain rfl := Int.ofNat.inj hn
      have written := Written.plus (k := magnitude digits) zeros
      rwa [← hz] at written
    | minus h => exact absurd rfl unsigned
  · rintro ⟨written, bound⟩
    cases written with
    | plain zeros =>
      have hd := isDigits_zeros zeros k
      have spells := Spells.plain hd
      rw [magnitude_zeros] at spells
      refine ⟨spells, ?_, bound⟩
      intro minus
      exact absurd (hd.2 '-' (List.mem_of_mem_head? minus)) (by decide)
    | plus zeros =>
      have spells := Spells.plus (isDigits_zeros zeros k)
      rw [magnitude_zeros] at spells
      exact ⟨spells, nofun, bound⟩

theorem Counts.unbroken (h : Counts cs k) : Text.Unbroken cs := h.spells.solid.2

end PCode.Numeral
