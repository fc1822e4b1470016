import PCode.Text.Padding
/-!
The Gregorian calendar, extended to all years. Days are counted in eras of 400 years that start on
the first of March, so that a leap day is the last day of its year.
-/

namespace PCode.Calendar

structure Date where
  year : Nat
  month : Nat
  day : Nat
  deriving DecidableEq

def daysPerEra : Nat := 146097

/-- Days from 0000-03-01 to 1970-01-01. -/
def epochOffset : Nat := 719468

/-- The year of an era that a day of the era belongs to. -/
def yearOfEra (day : Nat) : Nat := (day - day / 1460 + day / 36524 - day / 146096) / 365

/-- The days of an era before a year. -/
def daysBeforeYear (year : Nat) : Nat := 365 * year + year / 4 - year / 100

/-- The month that a day of the year belongs to, counted from March. -/
def monthOfYear (day : Nat) : Nat := (5 * day + 2) / 153

/-- The days of a year before a month. -/
def daysBeforeMonth (month : Nat) : Nat := (153 * month + 2) / 5

/-- The date a number of days after 1970-01-01. -/
def ofDays (days : Nat) : Date :=
  let era := (days + epochOffset) / daysPerEra
  let dayOfEra := (days + epochOffset) % daysPerEra
  let year := yearOfEra dayOfEra
  let dayOfYear := dayOfEra - daysBeforeYear year
  let month := monthOfYear dayOfYear
  let day := dayOfYear - daysBeforeMonth month + 1
  if month < 10 then ⟨era * 400 + year, month + 3, day⟩
  else ⟨era * 400 + year + 1, month - 9, day⟩

/-- Years are shown as 32-bit numbers, with at least four digits. -/
def Date.text (d : Date) : String :=
  let pad := Text.zeroPadded
  s!"{pad 4 (d.year % UInt32.size)}-{pad 2 d.month}-{pad 2 d.day}"

end PCode.Calendar
