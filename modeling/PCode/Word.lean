/-!
Machine words: signed 64-bit integers, for stack cells and for the operands of instructions. An
integer outside that range has no word, and a negative word names no index.
-/

namespace PCode

abbrev Word := Int64

namespace Word

def least : Int := -0x8000000000000000

def greatest : Int := 0x7fffffffffffffff

/-- How many words name an index. -/
def indexCount : Nat := 0x8000000000000000

def ofInt? (n : Int) : Option Word :=
  if least ≤ n ∧ n ≤ greatest then some (Int64.ofInt n) else none

def ofBool (b : Bool) : Word := if b then 1 else 0

/-- The word of an index, taken modulo 2 ^ 64. -/
def ofIndex (n : Nat) : Word := Int64.ofNat n

/-- The word of an index, or the greatest word if the index exceeds it. -/
def saturating (n : Nat) : Word := Int64.ofInt (min (n : Int) greatest)

def toIndex? (w : Word) : Option Nat := w.toInt.toNat?

theorem least_le (w : Word) : least ≤ w.toInt := w.le_toInt

theorem le_greatest (w : Word) : w.toInt ≤ greatest := by
  have := w.toInt_lt
  simp only [greatest]
  omega

theorem toInt_ofInt {n : Int} (h : least ≤ n ∧ n ≤ greatest) : (Int64.ofInt n).toInt = n :=
  Int64.toInt_ofInt_of_le h.1 (by have := h.2; simp only [greatest] at this; omega)

theorem ofInt?_eq_some_iff {n : Int} {w : Word} : ofInt? n = some w ↔ w.toInt = n := by
  unfold ofInt?
  split
  next h =>
    constructor
    · intro e
      obtain rfl := Option.some.inj e
      exact toInt_ofInt h
    · rintro rfl
      rw [Int64.ofInt_toInt]
  next h =>
    simp only [reduceCtorEq, false_iff]
    rintro rfl
    exact h ⟨least_le w, le_greatest w⟩

theorem ofInt?_eq_none_iff {n : Int} : ofInt? n = none ↔ n < least ∨ greatest < n := by
  simp only [ofInt?, ite_eq_right_iff, reduceCtorEq, imp_false, not_and]
  omega

theorem toIndex?_eq_some_iff {w : Word} {n : Nat} : toIndex? w = some n ↔ w.toInt = n :=
  Int.mem_toNat?

theorem toIndex?_eq_none_iff {w : Word} : toIndex? w = none ↔ w.toInt < 0 := by
  unfold toIndex?
  cases w.toInt <;> simp [Int.toNat?]

theorem toInt_ofIndex {n : Nat} (h : n < indexCount) : (ofIndex n).toInt = n :=
  Int64.toInt_ofNat_of_lt h

theorem toIndex?_ofIndex {n : Nat} (h : n < indexCount) : toIndex? (ofIndex n) = some n :=
  toIndex?_eq_some_iff.2 (toInt_ofIndex h)

theorem toInt_saturating (n : Nat) : (saturating n).toInt = min (n : Int) greatest :=
  toInt_ofInt (by simp only [least, greatest]; omega)

theorem toIndex?_saturating (n : Nat) : toIndex? (saturating n) = some (min n (indexCount - 1)) :=
  toIndex?_eq_some_iff.2 (by rw [toInt_saturating, greatest, indexCount]; omega)

end Word
end PCode
