import PCode.Calendar
import Mathlib.Algebra.BigOperators.Intervals
import Mathlib.Tactic.IntervalCases
/-!
The Gregorian calendar as it is counted on: lengths of years and months, and the day after a day. The date of
a number of days is read off a position in the count of eras, which moves on with the calendar.
-/

namespace PCode.Calendar

open Finset (sum_Ico_succ_top)

def IsLeap (year : Nat) : Prop := year % 4 = 0 ∧ (year % 100 ≠ 0 ∨ year % 400 = 0)

instance (year : Nat) : Decidable (IsLeap year) := inferInstanceAs (Decidable (_ ∧ _))

def yearLength (year : Nat) : Nat := if IsLeap year then 366 else 365

def monthLength (year month : Nat) : Nat :=
  if month = 2 then if IsLeap year then 29 else 28
  else if month ∈ [4, 6, 9, 11] then 30 else 31

def epoch : Date := ⟨1970, 1, 1⟩

namespace Date

structure Valid (d : Date) : Prop where
  month : 1 ≤ d.month ∧ d.month ≤ 12
  day : 1 ≤ d.day ∧ d.day ≤ monthLength d.year d.month

def next (d : Date) : Date :=
  if d.day < monthLength d.year d.month then { d with day := d.day + 1 }
  else if d.month < 12 then ⟨d.year, d.month + 1, 1⟩
  else ⟨d.year + 1, 1, 1⟩

def daysSinceEpoch (d : Date) : Nat :=
  ∑ year ∈ Finset.Ico epoch.year d.year, yearLength year + ∑ month ∈ Finset.Ico 1 d.month, monthLength d.year month +
    (d.day - 1)

variable {d : Date}

theorem sum_monthLength (year : Nat) : ∑ month ∈ Finset.Ico 1 12, monthLength year month + 31 = yearLength year := by
  by_cases h : IsLeap year <;> simp [sum_Ico_succ_top, monthLength, yearLength, h]

theorem year_le_next (d : Date) : d.year ≤ d.next.year := by
  unfold next
  split_ifs
  · exact Nat.le_refl _
  · exact Nat.le_refl _
  · exact Nat.le_succ _

theorem daysSinceEpoch_next (h : d.Valid) (hy : epoch.year ≤ d.year) :
    d.next.daysSinceEpoch = d.daysSinceEpoch + 1 := by
  have hm := h.month
  have hd := h.day
  unfold next
  split_ifs with hlt hdec
  · simp only [daysSinceEpoch]
    omega
  · simp only [daysSinceEpoch, sum_Ico_succ_top hm.1]
    omega
  · have december : d.month = 12 := by omega
    have hsum := sum_monthLength d.year
    have hlength : monthLength d.year 12 = 31 := rfl
    rw [december] at hd hlt
    simp only [daysSinceEpoch, sum_Ico_succ_top hy, Finset.Ico_self, Finset.sum_empty, december]
    omega

end Date

/-- The length of a month that is counted from March, in a year that ends with its leap day. -/
def monthLengthFromMarch (year month : Nat) : Nat :=
  if month < 11 then daysBeforeMonth (month + 1) - daysBeforeMonth month
  else if IsLeap (year + 1) then 29 else 28

/-- A day by its era, its year of the era, its month counted from March, and its day of the month counted from 0. -/
structure Position where
  era : Nat
  year : Nat
  month : Nat
  day : Nat
  year_lt : year < 400
  month_lt : month < 12
  day_lt : day < monthLengthFromMarch year month

namespace Position

def dayOfYear (p : Position) : Nat := daysBeforeMonth p.month + p.day

def dayOfEra (p : Position) : Nat := daysBeforeYear p.year + p.dayOfYear

def number (p : Position) : Nat := p.era * daysPerEra + p.dayOfEra

def date (p : Position) : Date :=
  if p.month < 10 then ⟨p.era * 400 + p.year, p.month + 3, p.day + 1⟩
  else ⟨p.era * 400 + p.year + 1, p.month - 9, p.day + 1⟩

theorem isLeap_era (era year : Nat) : IsLeap (era * 400 + year + 1) ↔ IsLeap (year + 1) := by
  unfold IsLeap
  omega

theorem day_date (p : Position) : p.date.day = p.day + 1 := by
  unfold date
  split <;> rfl

theorem day_lt_31 (p : Position) : p.day < 31 := by
  have hd := p.day_lt
  simp only [monthLengthFromMarch, daysBeforeMonth] at hd
  split_ifs at hd <;> omega

theorem monthLength_date (p : Position) : monthLength p.date.year p.date.month = monthLengthFromMarch p.year p.month := by
  have hleap := isLeap_era p.era p.year
  have hm := p.month_lt
  unfold date
  generalize p.month = month at hm ⊢
  interval_cases month <;> simp [monthLength, monthLengthFromMarch, daysBeforeMonth, hleap]

theorem valid_date (p : Position) : p.date.Valid := by
  have hm := p.month_lt
  have hd := p.day_lt
  constructor
  · unfold date
    split
    · simp only
      omega
    · simp only
      omega
  · rw [monthLength_date, day_date]
    omega

theorem dayOfYear_lt (p : Position) : p.dayOfYear < 365 ∨ p.dayOfYear = 365 ∧ IsLeap (p.year + 1) := by
  have hm := p.month_lt
  have hd := p.day_lt
  unfold monthLengthFromMarch at hd
  simp only [dayOfYear, daysBeforeMonth] at hd ⊢
  split_ifs at hd with _ hleap
  · omega
  · simp only [hleap, and_true]
    omega
  · omega

theorem yearOfEra_dayOfEra (p : Position) : yearOfEra p.dayOfEra = p.year := by
  have hd := p.dayOfYear_lt
  have hy := p.year_lt
  unfold IsLeap at hd
  unfold dayOfEra
  generalize p.dayOfYear = d at hd ⊢
  -- Centuries, fours of years, and single years.
  obtain ⟨h, q, y, hyear, hh, hq, hy⟩ : ∃ h q y, p.year = 100 * h + 4 * q + y ∧ h < 4 ∧ q < 25 ∧ y < 4 :=
    ⟨p.year / 100, p.year % 100 / 4, p.year % 4, by omega, by omega, by omega, by omega⟩
  rw [hyear] at hd ⊢
  have hday : daysBeforeYear (100 * h + 4 * q + y) + d = 36524 * h + 1461 * q + 365 * y + d := by
    unfold daysBeforeYear
    omega
  have hfours : (36524 * h + 1461 * q + 365 * y + d) / 1460 = 25 * h + q + (24 * h + q + 365 * y + d) / 1460 := by
    omega
  rw [hday, yearOfEra]
  by_cases last : d = 365 ∧ q = 24
  · omega
  · have hcenturies : (36524 * h + 1461 * q + 365 * y + d) / 36524 = h := by omega
    have heras : (36524 * h + 1461 * q + 365 * y + d) / 146096 = 0 := by omega
    rw [hfours, hcenturies, heras]
    omega

theorem monthOfYear_dayOfYear (p : Position) : monthOfYear p.dayOfYear = p.month := by
  have hm := p.month_lt
  have hd := p.day_lt
  unfold monthLengthFromMarch at hd
  simp only [monthOfYear, dayOfYear, daysBeforeMonth] at hd ⊢
  split_ifs at hd <;> omega

theorem dayOfEra_lt (p : Position) : p.dayOfEra < daysPerEra := by
  have hd := p.dayOfYear_lt
  have hy := p.year_lt
  simp only [dayOfEra, daysBeforeYear, daysPerEra, IsLeap] at hd ⊢
  omega

theorem ofDays_of_number {p : Position} {days : Nat} (h : p.number = days + epochOffset) : ofDays days = p.date := by
  have hlt := p.dayOfEra_lt
  have hera : (days + epochOffset) / daysPerEra = p.era := by
    rw [← h, number, daysPerEra] at *
    omega
  have hday : (days + epochOffset) % daysPerEra = p.dayOfEra := by
    rw [← h, number, daysPerEra] at *
    omega
  simp only [ofDays, hera, hday, yearOfEra_dayOfEra]
  have hyear : p.dayOfEra - daysBeforeYear p.year = p.dayOfYear := Nat.add_sub_cancel_left _ _
  have hmonth : p.dayOfYear - daysBeforeMonth p.month = p.day := Nat.add_sub_cancel_left _ _
  rw [hyear, monthOfYear_dayOfYear, hmonth]
  rfl

theorem exists_next_of_day (p : Position) (h : p.day + 1 < monthLengthFromMarch p.year p.month) :
    ∃ q : Position, q.number = p.number + 1 ∧ q.date = p.date.next := by
  have hlt : p.date.day < monthLength p.date.year p.date.month := by rwa [day_date, monthLength_date]
  refine ⟨{ p with day := p.day + 1, day_lt := h }, ?_, ?_⟩
  · simp only [number, dayOfEra, dayOfYear]
    omega
  · rw [Date.next, if_pos hlt]
    unfold date
    split <;> rfl

theorem next_date_of_last (p : Position) (h : p.day + 1 = monthLengthFromMarch p.year p.month) :
    p.date.next = if p.date.month < 12 then ⟨p.date.year, p.date.month + 1, 1⟩ else ⟨p.date.year + 1, 1, 1⟩ := by
  have last : ¬p.date.day < monthLength p.date.year p.date.month := by
    rw [day_date, monthLength_date, h]
    exact Nat.lt_irrefl _
  rw [Date.next, if_neg last]

theorem exists_next_of_month (p : Position) (h : p.day + 1 = monthLengthFromMarch p.year p.month) (hm : p.month < 11) :
    ∃ q : Position, q.number = p.number + 1 ∧ q.date = p.date.next := by
  have hlength : 0 < monthLengthFromMarch p.year (p.month + 1) := by
    unfold monthLengthFromMarch daysBeforeMonth
    split_ifs <;> omega
  refine ⟨⟨p.era, p.year, p.month + 1, 0, p.year_lt, Nat.succ_lt_succ hm, hlength⟩, ?_, ?_⟩
  · rw [monthLengthFromMarch, if_pos hm] at h
    simp only [number, dayOfEra, dayOfYear]
    omega
  · rw [next_date_of_last p h]
    unfold date
    rcases (by omega : p.month < 9 ∨ p.month = 9 ∨ p.month = 10) with before | december | january
    · have inside : p.month + 1 < 10 ∧ p.month < 10 ∧ p.month + 3 < 12 := by omega
      simp [inside]
    · simp [december]
    · simp [january]

def firstOfMarch (era year : Nat) (h : year < 400) : Position :=
  ⟨era, year, 0, 0, h, Nat.succ_pos 11, Nat.succ_pos 30⟩

theorem number_firstOfMarch {era year : Nat} (h : year < 400) :
    (firstOfMarch era year h).number = era * daysPerEra + daysBeforeYear year := by
  simp [number, dayOfEra, dayOfYear, firstOfMarch, daysBeforeMonth]

theorem date_firstOfMarch {era year : Nat} (h : year < 400) :
    (firstOfMarch era year h).date = ⟨era * 400 + year, 3, 1⟩ := rfl

/-- The day after the end of February is the first of March, after 400 years in the next era. -/
theorem exists_next_of_year (p : Position) (h : p.day + 1 = monthLengthFromMarch p.year p.month) (hm : p.month = 11) :
    ∃ q : Position, q.number = p.number + 1 ∧ q.date = p.date.next := by
  have hy := p.year_lt
  have hdate : p.date.next = ⟨p.era * 400 + p.year + 1, 3, 1⟩ := by
    rw [next_date_of_last p h]
    simp [date, hm]
  have hnumber : p.number = p.era * daysPerEra + daysBeforeYear p.year + 337 + p.day := by
    simp only [number, dayOfEra, dayOfYear, hm, daysBeforeMonth]
    omega
  rw [monthLengthFromMarch, if_neg (by omega)] at h
  rw [hdate, hnumber]
  by_cases last : p.year = 399
  · refine ⟨firstOfMarch (p.era + 1) 0 (by decide), ?_, ?_⟩
    · rw [last, if_pos (by decide)] at h
      rw [number_firstOfMarch, last]
      simp only [daysBeforeYear, daysPerEra]
      omega
    · have hyear : (p.era + 1) * 400 + 0 = p.era * 400 + p.year + 1 := by omega
      rw [date_firstOfMarch, hyear]
  · refine ⟨firstOfMarch p.era (p.year + 1) (by omega), ?_, ?_⟩
    · rw [number_firstOfMarch]
      by_cases leap : IsLeap (p.year + 1)
      · rw [if_pos leap] at h
        simp only [IsLeap, daysBeforeYear] at leap ⊢
        omega
      · rw [if_neg leap] at h
        simp only [IsLeap, daysBeforeYear] at leap ⊢
        omega
    · rw [date_firstOfMarch, Nat.add_assoc]

theorem exists_next (p : Position) : ∃ q : Position, q.number = p.number + 1 ∧ q.date = p.date.next := by
  have hm := p.month_lt
  by_cases hd : p.day + 1 = monthLengthFromMarch p.year p.month
  · by_cases february : p.month = 11
    · exact exists_next_of_year p hd february
    · exact exists_next_of_month p hd (by omega)
  · exact exists_next_of_day p (Nat.lt_of_le_of_ne p.day_lt hd)

/-- 1970 is year 369 of its era until March. -/
def ofEpoch : Position := ⟨4, 369, 10, 0, by decide, by decide, by decide⟩

theorem exists_number (days : Nat) : ∃ p : Position, p.number = days + epochOffset := by
  induction days with
  | zero => exact ⟨ofEpoch, rfl⟩
  | succ days ih =>
    obtain ⟨p, hp⟩ := ih
    obtain ⟨q, hq, -⟩ := p.exists_next
    exact ⟨q, by rw [hq, hp, Nat.add_right_comm]⟩

end Position

theorem ofDays_zero : ofDays 0 = epoch := Position.ofDays_of_number (p := .ofEpoch) rfl

theorem ofDays_succ (days : Nat) : ofDays (days + 1) = (ofDays days).next := by
  obtain ⟨p, hp⟩ := Position.exists_number days
  obtain ⟨q, hq, hdate⟩ := p.exists_next
  have hq' : q.number = days + 1 + epochOffset := by rw [hq, hp, Nat.add_right_comm]
  rw [Position.ofDays_of_number hp, Position.ofDays_of_number hq', hdate]

theorem valid_ofDays (days : Nat) : (ofDays days).Valid := by
  obtain ⟨p, hp⟩ := Position.exists_number days
  rw [Position.ofDays_of_number hp]
  exact p.valid_date

theorem epoch_le_year_ofDays (days : Nat) : epoch.year ≤ (ofDays days).year := by
  induction days with
  | zero => rw [ofDays_zero]
  | succ days ih =>
    rw [ofDays_succ]
    exact Nat.le_trans ih (Date.year_le_next _)

theorem daysSinceEpoch_ofDays (days : Nat) : (ofDays days).daysSinceEpoch = days := by
  induction days with
  | zero => rw [ofDays_zero]; rfl
  | succ days ih =>
    rw [ofDays_succ, Date.daysSinceEpoch_next (valid_ofDays days) (epoch_le_year_ofDays days), ih]

end PCode.Calendar
