import PCode.Proofs.Calendar.Gregorian
import PCode.Proofs.Text.Sorting
/-!
Later days have later dates: a date read as one number, its year before its month before its day, grows with
each day. As long as the year has four digits, the text of the date sorts as the days do.
-/

namespace PCode.Calendar

namespace Date

variable {d : Date}

/-- The digits of a date, two for the month and two for the day. -/
def stamp (d : Date) : Nat := (d.year * 100 + d.month) * 100 + d.day

theorem monthLength_le (year month : Nat) : monthLength year month ≤ 31 := by
  unfold monthLength
  split_ifs <;> decide

theorem Valid.month_lt (h : d.Valid) : d.month < 100 := Nat.lt_of_le_of_lt h.month.2 (by decide)

theorem Valid.day_lt (h : d.Valid) : d.day < 100 :=
  Nat.lt_of_le_of_lt (Nat.le_trans h.day.2 (monthLength_le _ _)) (by decide)

theorem stamp_lt_next (h : d.Valid) : d.stamp < d.next.stamp := by
  have hm := h.month_lt
  have hd := h.day_lt
  unfold stamp next
  split_ifs
  · simp only
    omega
  · simp only
    omega
  · simp only
    omega

/-- The day after the last one whose year has four digits. -/
def afterFourDigits : Date := ⟨10000, 1, 1⟩

end Date

theorem stamp_strictMono : StrictMono fun days => (ofDays days).stamp := by
  apply strictMono_nat_of_lt_succ
  intro days
  rw [ofDays_succ]
  exact Date.stamp_lt_next (valid_ofDays days)

theorem ofDays_2932897 : ofDays 2932897 = Date.afterFourDigits := rfl

theorem daysSinceEpoch_afterFourDigits : Date.afterFourDigits.daysSinceEpoch = 2932897 :=
  daysSinceEpoch_ofDays 2932897

theorem year_ofDays_lt {days : Nat} (h : days < Date.afterFourDigits.daysSinceEpoch) : (ofDays days).year < 10000 := by
  rw [daysSinceEpoch_afterFourDigits] at h
  have earlier := stamp_strictMono h
  have hm := (valid_ofDays days).month
  have hd := (valid_ofDays days).day
  simp only [ofDays_2932897, Date.stamp, Date.afterFourDigits] at earlier
  omega

theorem Date.toList_text {d : Date} (h : d.year < 10000) : d.text.toList =
    (Text.zeroPadded 4 d.year).toList ++ ['-'] ++ (Text.zeroPadded 2 d.month).toList ++ ['-'] ++
      (Text.zeroPadded 2 d.day).toList := by
  have small : d.year % UInt32.size = d.year := Nat.mod_eq_of_lt (Nat.lt_trans h (by decide))
  simp only [Date.text, small, String.toList_append]
  rfl

theorem sorts_text {m n : Nat} (hm : m < Date.afterFourDigits.daysSinceEpoch)
    (hn : n < Date.afterFourDigits.daysSinceEpoch) : Text.Sorts m n (ofDays m).text.toList (ofDays n).text.toList := by
  have ym := year_ofDays_lt hm
  have yn := year_ofDays_lt hn
  have vm := valid_ofDays m
  have vn := valid_ofDays n
  rw [Date.toList_text ym, Date.toList_text yn]
  apply Text.Sorts.of_strictMono stamp_strictMono
  have year := Text.sorts_zeroPadded (by decide : 0 < 4) ym yn
  have month := (year.append_same ['-']).append_zeroPadded (by decide : 0 < 2) (by decide) vm.month_lt vn.month_lt
  exact (month.append_same ['-']).append_zeroPadded (by decide) (by decide) vm.day_lt vn.day_lt

end PCode.Calendar
