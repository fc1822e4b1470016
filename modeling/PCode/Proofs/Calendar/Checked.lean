import PCode.Proofs.Calendar.Gregorian
/-!
Dates in machine integers. A 32-bit number without a sign holds what is counted within an era, a signed 64-bit
number holds eras and years, and no operation on the way from the days to the date leaves its type.
-/

namespace PCode.Calendar

namespace Date

def cut (d : Date) : Date := { d with year := d.year % UInt32.size }

theorem text_cut (d : Date) : d.cut.text = d.text := by
  rw [text, text, cut, Nat.mod_mod]

end Date

namespace Checked

def within (low high n : Int) : Option Int := if low ≤ n ∧ n ≤ high then some n else none

def unsigned32 (n : Int) : Option Int := within 0 0xffffffff n

def signed64 (n : Int) : Option Int := within (-0x8000000000000000) 0x7fffffffffffffff n

def yearOfEra (day : Int) : Option Int := do
  let n ← unsigned32 (day - day / 1460)
  let n ← unsigned32 (n + day / 36524)
  let n ← unsigned32 (n - day / 146096)
  return n / 365

def daysBeforeYear (year : Int) : Option Int := do
  let n ← unsigned32 (365 * year)
  let n ← unsigned32 (n + year / 4)
  unsigned32 (n - year / 100)

def monthOfYear (day : Int) : Option Int := do
  let n ← unsigned32 (5 * day)
  let n ← unsigned32 (n + 2)
  return n / 153

def daysBeforeMonth (month : Int) : Option Int := do
  let n ← unsigned32 (153 * month)
  let n ← unsigned32 (n + 2)
  return n / 5

/-- The date of a day in a year that starts in March. The year is cut to 32 bits in the end. -/
def ofMarch (year month day : Int) : Option Date := do
  let month ← (if month < 10 then unsigned32 (month + 3) else unsigned32 (month - 9))
  let year ← (if month ≤ 2 then signed64 (year + 1) else some year)
  return ⟨(year % UInt32.size).toNat, month.toNat, day.toNat⟩

/-- Each operation of `Calendar.ofDays` in its order, `none` where a result does not fit. -/
def ofDays (days : Nat) : Option Date := do
  let days ← signed64 days
  let days ← signed64 (days + epochOffset)
  let era ← signed64 (days / daysPerEra)
  let dayOfEra ← unsigned32 (days % daysPerEra)
  let yearOfEra ← yearOfEra dayOfEra
  let era ← signed64 (era * 400)
  let year ← signed64 (yearOfEra + era)
  let before ← daysBeforeYear yearOfEra
  let dayOfYear ← unsigned32 (dayOfEra - before)
  let month ← monthOfYear dayOfYear
  let before ← daysBeforeMonth month
  let day ← unsigned32 (dayOfYear - before)
  let day ← unsigned32 (day + 1)
  ofMarch year month day

section

variable {α : Type} {n : Int} {f : Int → Option α}

theorem bind_some {x : Option Int} (h : x = some n) : (x >>= f) = f n := by
  rw [h]
  rfl

theorem bind_unsigned32 (h : 0 ≤ n ∧ n ≤ 0xffffffff) : (unsigned32 n >>= f) = f n := by
  rw [unsigned32, within, if_pos h]
  rfl

theorem bind_signed64 (h : -0x8000000000000000 ≤ n ∧ n ≤ 0x7fffffffffffffff) : (signed64 n >>= f) = f n := by
  rw [signed64, within, if_pos h]
  rfl

end

theorem yearOfEra_eq {day : Nat} (h : day < daysPerEra) : yearOfEra day = some (Calendar.yearOfEra day : Int) := by
  simp only [daysPerEra] at h
  rw [yearOfEra, bind_unsigned32 (by omega), bind_unsigned32 (by omega), bind_unsigned32 (by omega)]
  simp only [Calendar.yearOfEra]
  exact congrArg some (by omega)

theorem daysBeforeYear_eq {year : Nat} (h : year < 400) :
    daysBeforeYear year = some (Calendar.daysBeforeYear year : Int) := by
  rw [daysBeforeYear, bind_unsigned32 (by omega), bind_unsigned32 (by omega), unsigned32, within, if_pos (by omega)]
  simp only [Calendar.daysBeforeYear]
  exact congrArg some (by omega)

theorem monthOfYear_eq {day : Nat} (h : day < 366) : monthOfYear day = some (Calendar.monthOfYear day : Int) := by
  rw [monthOfYear, bind_unsigned32 (by omega), bind_unsigned32 (by omega)]
  simp only [Calendar.monthOfYear]
  exact congrArg some (by omega)

theorem daysBeforeMonth_eq {month : Nat} (h : month < 12) :
    daysBeforeMonth month = some (Calendar.daysBeforeMonth month : Int) := by
  rw [daysBeforeMonth, bind_unsigned32 (by omega), bind_unsigned32 (by omega)]
  simp only [Calendar.daysBeforeMonth]
  exact congrArg some (by omega)

section

variable {p : Position} {days : Nat}

theorem era_eq (h : p.number = days + epochOffset) : ((days : Int) + epochOffset) / daysPerEra = p.era := by
  have hlt := p.dayOfEra_lt
  simp only [Position.number, daysPerEra] at h hlt ⊢
  omega

theorem dayOfEra_eq (h : p.number = days + epochOffset) : ((days : Int) + epochOffset) % daysPerEra = p.dayOfEra := by
  have hlt := p.dayOfEra_lt
  simp only [Position.number, daysPerEra] at h hlt ⊢
  omega

theorem era_le (h : p.number = days + epochOffset) (bound : days ≤ 0xffffffffffff) : p.era ≤ 0xffffffffffff := by
  simp only [Position.number, daysPerEra, epochOffset] at h
  omega

theorem ofMarch_eq (h : p.era ≤ 0xffffffffffff) :
    ofMarch (p.year + p.era * 400) p.month (p.day + 1) = some p.date.cut := by
  have hyear := p.year_lt
  have hmonth := p.month_lt
  rw [ofMarch]
  by_cases hm : p.month < 10
  · have next : ¬(p.month : Int) + 3 ≤ 2 := by omega
    rw [if_pos (by omega), bind_unsigned32 (by omega), if_neg next, bind_some rfl, Position.date, if_pos hm]
    simp only [Date.cut, Option.pure_def, Option.some.injEq, Date.mk.injEq, UInt32.size]
    omega
  · have next : (p.month : Int) - 9 ≤ 2 := by omega
    rw [if_neg (by omega), bind_unsigned32 (by omega), if_pos next, bind_signed64 (by omega), Position.date, if_neg hm]
    simp only [Date.cut, Option.pure_def, Option.some.injEq, Date.mk.injEq, UInt32.size]
    omega

/-- Days of up to 48 bits leave room for every number on the way from a position to its date. -/
theorem ofDays_of_number (h : p.number = days + epochOffset) (bound : days ≤ 0xffffffffffff) :
    ofDays days = some p.date.cut := by
  have hyear := p.year_lt
  have hmonth := p.month_lt
  have hday := p.day_lt_31
  have hera := era_le h bound
  have hoffset : (days : Int) + epochOffset ≤ 0x1ffffffffffff := by
    unfold epochOffset
    omega
  have hofEra := p.dayOfEra_lt
  have hofYear : p.dayOfYear < 366 := by
    have := p.dayOfYear_lt
    omega
  have dayOfYear : (p.dayOfEra : Int) - Calendar.daysBeforeYear p.year = p.dayOfYear := by
    rw [Position.dayOfEra]
    omega
  have day : (p.dayOfYear : Int) - Calendar.daysBeforeMonth p.month = p.day := by
    rw [Position.dayOfYear]
    omega
  rw [ofDays, bind_signed64 (by omega), bind_signed64 (by omega), era_eq h, bind_signed64 (by omega), dayOfEra_eq h,
    bind_unsigned32 (by unfold daysPerEra at hofEra; omega), bind_some (yearOfEra_eq hofEra), p.yearOfEra_dayOfEra,
    bind_signed64 (by omega), bind_signed64 (by omega), bind_some (daysBeforeYear_eq hyear), dayOfYear,
    bind_unsigned32 (by omega), bind_some (monthOfYear_eq hofYear), p.monthOfYear_dayOfYear,
    bind_some (daysBeforeMonth_eq hmonth), day, bind_unsigned32 (by omega), bind_unsigned32 (by omega),
    ofMarch_eq hera]

end

end Checked

/-- The last day that a clock of 64-bit seconds reaches. -/
def lastDay : Nat := (UInt64.size - 1) / 86400

structure Gregorian (days : Nat) : Prop where
  valid : (ofDays days).Valid
  since : epoch.year ≤ (ofDays days).year
  count : (ofDays days).daysSinceEpoch = days
  start : ofDays 0 = epoch
  next : ofDays (days + 1) = (ofDays days).next
  checked : days ≤ lastDay → Checked.ofDays days = some (ofDays days).cut
  shown : (ofDays days).cut.text = (ofDays days).text

theorem ofDays_gregorian (days : Nat) : Gregorian days := by
  constructor
  case valid => exact valid_ofDays days
  case since => exact epoch_le_year_ofDays days
  case count => exact daysSinceEpoch_ofDays days
  case start => exact ofDays_zero
  case next => exact ofDays_succ days
  case checked =>
    intro bound
    obtain ⟨p, hp⟩ := Position.exists_number days
    have hdays : days ≤ 0xffffffffffff := Nat.le_trans bound (by decide)
    rw [Checked.ofDays_of_number hp hdays, Position.ofDays_of_number hp]
  case shown => exact (ofDays days).text_cut

example : ofDays lastDay = ⟨584554051223, 11, 9⟩ ∧ Checked.ofDays lastDay = some ⟨438498967, 11, 9⟩ := by decide

end PCode.Calendar
