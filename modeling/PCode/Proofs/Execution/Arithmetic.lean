import PCode.Arithmetic
import Mathlib.Algebra.Order.Group.Unbundled.Abs
import Mathlib.Algebra.Order.Group.Unbundled.Int
import Mathlib.Algebra.Ring.Int.Parity
/-!
What the operations compute. Their results are exact: an operation fails where the exact result is no
word, and nowhere else but on a division by zero.
-/

namespace PCode

namespace Word

def Within (n : Int) : Prop := least ≤ n ∧ n ≤ greatest

theorem within (w : Word) : Within w.toInt := ⟨least_le w, le_greatest w⟩

/-- The only quotient that is no word is that of the least word by `-1`. -/
theorem within_tdiv {x y : Word} (hy : y.toInt ≠ 0) :
    Within (x.toInt.tdiv y.toInt) ↔ ¬(x.toInt = least ∧ y.toInt = -1) := by
  have hx : Within x.toInt := within x
  have hq : (x.toInt.tdiv y.toInt).natAbs = x.toInt.natAbs / y.toInt.natAbs := Int.natAbs_tdiv _ _
  generalize x.toInt = m, y.toInt = n at *
  simp only [Within, least, greatest] at *
  by_cases hn : n.natAbs = 1
  · obtain rfl | rfl : n = 1 ∨ n = -1 := by omega
    · rw [Int.tdiv_one]
      omega
    · rw [Int.tdiv_neg, Int.tdiv_one]
      omega
  · -- A divisor other than `1` and `-1` at least halves the dividend.
    have half : m.natAbs / n.natAbs ≤ m.natAbs / 2 := Nat.div_le_div_left (by omega) (by decide)
    omega

theorem within_tmod {x y : Word} (hy : y.toInt ≠ 0) : Within (x.toInt.tmod y.toInt) := by
  have hn : Within y.toInt := within y
  have hr : (x.toInt.tmod y.toInt).natAbs = x.toInt.natAbs % y.toInt.natAbs := Int.natAbs_tmod _ _
  have hlt : x.toInt.natAbs % y.toInt.natAbs < y.toInt.natAbs := Nat.mod_lt _ (by omega)
  simp only [Within, least, greatest] at *
  omega

end Word

/-- The comparisons, with the relation that each of them decides. -/
def Binary.comparison? : Binary → Option (Int → Int → Bool)
  | eq => some fun m n => m = n
  | ne => some fun m n => m ≠ n
  | lt => some fun m n => m < n
  | le => some fun m n => m ≤ n
  | gt => some fun m n => n < m
  | ge => some fun m n => n ≤ m
  | _ => none

def Binary.opposite? : Binary → Option Binary
  | eq => some ne
  | ne => some eq
  | lt => some ge
  | ge => some lt
  | gt => some le
  | le => some gt
  | _ => none

open Word

/-- `r` is the exact result `n` where that is a word, and an overflow where it is not. -/
structure Exact (operation : String) (n : Int) (r : Except Error Word) : Prop where
  within : Within n → ∃ z : Word, z.toInt = n ∧ r = .ok z
  beyond : ¬Within n → r = .error (.integerOverflow operation)

/-- `r` is what a division of `x` by `y` gives, which is `n` unless the division fails. -/
structure Divides (operation : String) (zero : Error) (x y : Word) (n : Int) (r : Except Error Word) :
    Prop where
  zero : r = .error zero ↔ y.toInt = 0
  overflow : r = .error (.integerOverflow operation) ↔ x.toInt = least ∧ y.toInt = -1
  value : y.toInt ≠ 0 → ¬(x.toInt = least ∧ y.toInt = -1) → ∃ z : Word, z.toInt = n ∧ r = .ok z

/-- The quotient `q` and the remainder `r` of `x` by `y`. -/
structure Division (x y q r : Word) : Prop where
  sum : x.toInt = q.toInt * y.toInt + r.toInt
  bound : |r.toInt| < |y.toInt|
  sign : r.toInt = 0 ∨ r.toInt.sign = x.toInt.sign

/-- What the operations compute from `x` and `y`, the second of them on top. -/
structure Arithmetic (x y : Word) : Prop where
  plus : Exact "PLUS" (x.toInt + y.toInt) (Binary.plus.eval x y)
  minus : Exact "MINUS" (x.toInt - y.toInt) (Binary.minus.eval x y)
  times : Exact "MUL" (x.toInt * y.toInt) (Binary.times.eval x y)
  negate : Exact "INVERT_VALUE" (-x.toInt) (Unary.negate.eval x)
  quotient : Divides "DIV" .divisionByZero x y (x.toInt.tdiv y.toInt) (Binary.quotient.eval x y)
  remainder : Divides "MOD" .moduloByZero x y (x.toInt.tmod y.toInt) (Binary.remainder.eval x y)
  division : ∀ q r, Binary.quotient.eval x y = .ok q → Binary.remainder.eval x y = .ok r → Division x y q r
  odd : Unary.odd.eval x = .ok (if Odd x.toInt then 1 else 0)
  comparison : ∀ op rel, Binary.comparison? op = some rel →
    op.eval x y = .ok (if rel x.toInt y.toInt then 1 else 0)
  opposite : ∀ op op', Binary.opposite? op = some op' →
    op.eval x y = .ok 1 ∧ op'.eval x y = .ok 0 ∨ op.eval x y = .ok 0 ∧ op'.eval x y = .ok 1

variable {x y q r z : Word} {n : Int} {operation : String}

theorem exactResult_eq_ok (h : z.toInt = n) : exactResult operation n = .ok z := by
  simp only [exactResult, ofInt?_eq_some_iff.mpr h]

theorem exact_exactResult (operation : String) (n : Int) : Exact operation n (exactResult operation n) where
  within h := ⟨Int64.ofInt n, toInt_ofInt h, exactResult_eq_ok (toInt_ofInt h)⟩
  beyond h := by
    have hn : ofInt? n = none := if_neg h
    simp only [exactResult, hn]

theorem eq_zero_iff : y = 0 ↔ y.toInt = 0 := Int64.toInt_inj.symm

/-- The three cases of a division exclude each other. -/
theorem divides_of_cases {zero : Error} {r : Except Error Word} (hne : zero ≠ .integerOverflow operation)
    (hz : y.toInt = 0 → r = .error zero)
    (ho : y.toInt ≠ 0 → x.toInt = least ∧ y.toInt = -1 → r = .error (.integerOverflow operation))
    (hv : y.toInt ≠ 0 → ¬(x.toInt = least ∧ y.toInt = -1) → ∃ z : Word, z.toInt = n ∧ r = .ok z) :
    Divides operation zero x y n r := by
  constructor
  case zero =>
    refine ⟨fun hr => ?_, hz⟩
    by_contra hy
    by_cases hx : x.toInt = least ∧ y.toInt = -1
    · exact hne (Except.error.inj (hr.symm.trans (ho hy hx)))
    · obtain ⟨z, -, h⟩ := hv hy hx
      cases hr.symm.trans h
  case overflow =>
    refine ⟨fun hr => ?_, fun hx => ho (by omega) hx⟩
    by_contra hx
    by_cases hy : y.toInt = 0
    · exact hne (Except.error.inj ((hz hy).symm.trans hr))
    · obtain ⟨z, -, h⟩ := hv hy hx
      cases hr.symm.trans h
  case value => exact hv

theorem divides_quotient (x y : Word) :
    Divides "DIV" .divisionByZero x y (x.toInt.tdiv y.toInt) (Binary.quotient.eval x y) := by
  have exact := exact_exactResult "DIV" (x.toInt.tdiv y.toInt)
  apply divides_of_cases (by simp)
  · intro hy
    exact if_pos (eq_zero_iff.mpr hy)
  · intro hy hx
    have hn : ¬Within (x.toInt.tdiv y.toInt) := fun hw => (within_tdiv hy).mp hw hx
    exact (if_neg (mt eq_zero_iff.mp hy)).trans (exact.beyond hn)
  · intro hy hx
    obtain ⟨z, hz, h⟩ := exact.within ((within_tdiv hy).mpr hx)
    exact ⟨z, hz, (if_neg (mt eq_zero_iff.mp hy)).trans h⟩

theorem divides_remainder (x y : Word) :
    Divides "MOD" .moduloByZero x y (x.toInt.tmod y.toInt) (Binary.remainder.eval x y) := by
  have quotient := exact_exactResult "MOD" (x.toInt.tdiv y.toInt)
  apply divides_of_cases (by simp)
  · intro hy
    exact if_pos (eq_zero_iff.mpr hy)
  · intro hy hx
    have hn : ¬Within (x.toInt.tdiv y.toInt) := fun hw => (within_tdiv hy).mp hw hx
    have ho := quotient.beyond hn
    -- The remainder would be a word, but it is the quotient that is tested.
    simp [Binary.eval, Binary.mnemonic, mt eq_zero_iff.mp hy, ho, bind, Except.bind]
  · intro hy hx
    obtain ⟨q, -, hq⟩ := quotient.within ((within_tdiv hy).mpr hx)
    obtain ⟨z, hz, h⟩ := (exact_exactResult "MOD" (x.toInt.tmod y.toInt)).within (within_tmod hy)
    refine ⟨z, hz, ?_⟩
    simp [Binary.eval, Binary.mnemonic, mt eq_zero_iff.mp hy, hq, h, bind, Except.bind]

theorem Divides.toInt {zero : Error} {r : Except Error Word} (h : Divides operation zero x y n r)
    (hr : r = .ok z) : y.toInt ≠ 0 ∧ z.toInt = n := by
  have hy : y.toInt ≠ 0 := by
    intro hy
    rw [h.zero.mpr hy] at hr
    cases hr
  have hx : ¬(x.toInt = least ∧ y.toInt = -1) := by
    intro hx
    rw [h.overflow.mpr hx] at hr
    cases hr
  obtain ⟨w, hw, ho⟩ := h.value hy hx
  obtain rfl := Except.ok.inj (ho.symm.trans hr)
  exact ⟨hy, hw⟩

theorem division (hq : Binary.quotient.eval x y = .ok q) (hr : Binary.remainder.eval x y = .ok r) :
    Division x y q r := by
  obtain ⟨hy, hq⟩ := (divides_quotient x y).toInt hq
  obtain ⟨-, hr⟩ := (divides_remainder x y).toInt hr
  constructor
  case sum =>
    rw [hq, hr, Int.add_comm]
    exact (Int.tmod_add_tdiv_mul _ _).symm
  case bound =>
    rw [hr, Int.abs_eq_natAbs, Int.abs_eq_natAbs, Int.natAbs_tmod]
    exact Int.ofNat_lt.mpr (Nat.mod_lt _ (Int.natAbs_pos.mpr hy))
  case sign =>
    rw [hr, Int.sign_tmod]
    split
    next divides => exact .inl (Int.tmod_eq_zero_of_dvd divides)
    next => exact .inr rfl

theorem eval_odd (x : Word) : Unary.odd.eval x = .ok (if Odd x.toInt then 1 else 0) := by
  have odd : x.toInt % 2 ≠ 0 ↔ Odd x.toInt := by rw [Int.odd_iff]; omega
  simp only [Unary.eval, ofBool, odd, decide_eq_true_eq]

theorem eval_of_comparison {op : Binary} {rel : Int → Int → Bool} (h : op.comparison? = some rel) :
    op.eval x y = .ok (if rel x.toInt y.toInt then 1 else 0) := by
  cases op <;> cases h <;> rfl

theorem comparison_of_opposite {op op' : Binary} (h : op.opposite? = some op') :
    ∃ rel rel', op.comparison? = some rel ∧ op'.comparison? = some rel' ∧ ∀ m n, rel' m n = !rel m n := by
  cases op <;> cases h <;> refine ⟨_, _, rfl, rfl, fun m n => ?_⟩
  all_goals grind

theorem eval_of_opposite {op op' : Binary} (h : op.opposite? = some op') :
    op.eval x y = .ok 1 ∧ op'.eval x y = .ok 0 ∨ op.eval x y = .ok 0 ∧ op'.eval x y = .ok 1 := by
  obtain ⟨rel, rel', ho, ho', negated⟩ := comparison_of_opposite h
  rw [eval_of_comparison ho, eval_of_comparison ho', negated]
  cases rel x.toInt y.toInt
  · exact .inr ⟨rfl, rfl⟩
  · exact .inl ⟨rfl, rfl⟩

theorem arithmetic (x y : Word) : Arithmetic x y where
  plus := exact_exactResult "PLUS" _
  minus := exact_exactResult "MINUS" _
  times := exact_exactResult "MUL" _
  negate := exact_exactResult "INVERT_VALUE" _
  quotient := divides_quotient x y
  remainder := divides_remainder x y
  division _ _ := division
  odd := eval_odd x
  comparison _ _ := eval_of_comparison
  opposite _ _ := eval_of_opposite

end PCode
