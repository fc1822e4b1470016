import PCode.Log
import PCode.Proofs.Calendar.Order
/-!
Time stamps sort as the clock runs. Until its year has five digits, a reading of the clock is written in columns
of fixed width, each with the digits of one place of its milliseconds.
-/

namespace PCode.Log

open Calendar (Date ofDays)
open Text (Sorts zeroPadded sorts_zeroPadded)

namespace Instant

variable {t u : Instant}

def milliseconds (t : Instant) : Nat := t.seconds * 1000 + t.nanoseconds / 1000000

structure FourDigits (t : Instant) : Prop where
  seconds : t.seconds < Date.afterFourDigits.daysSinceEpoch * 86400
  nanoseconds : t.nanoseconds < 1000000000

theorem toList_text (t : Instant) : t.text.toList =
    (ofDays (t.seconds / 86400)).text.toList ++ [' '] ++ (zeroPadded 2 (t.seconds / 3600 % 24)).toList ++ [':'] ++
      (zeroPadded 2 (t.seconds / 60 % 60)).toList ++ [':'] ++ (zeroPadded 2 (t.seconds % 60)).toList ++ ['.'] ++
      (zeroPadded 3 (t.nanoseconds / 1000000)).toList := by
  simp only [text, String.toList_append]
  rfl

theorem milliseconds_eq (t : Instant) : t.milliseconds =
    (((t.seconds / 86400 * 24 + t.seconds / 3600 % 24) * 60 + t.seconds / 60 % 60) * 60 + t.seconds % 60) * 1000 +
      t.nanoseconds / 1000000 := by
  unfold milliseconds
  omega

theorem FourDigits.days_lt (h : t.FourDigits) : t.seconds / 86400 < Date.afterFourDigits.daysSinceEpoch :=
  (Nat.div_lt_iff_lt_mul (by decide)).mpr h.seconds

theorem FourDigits.milliseconds_lt (h : t.FourDigits) : t.nanoseconds / 1000000 < 1000 :=
  (Nat.div_lt_iff_lt_mul (by decide)).mpr h.nanoseconds

theorem sorts_text (ht : t.FourDigits) (hu : u.FourDigits) :
    Sorts t.milliseconds u.milliseconds t.text.toList u.text.toList := by
  have date := Calendar.sorts_text ht.days_lt hu.days_lt
  have hour := (date.append_same [' ']).append_zeroPadded (by decide : 0 < 2) (by decide : 24 ≤ 10 ^ 2)
    (Nat.mod_lt (t.seconds / 3600) (by decide)) (Nat.mod_lt (u.seconds / 3600) (by decide))
  have minute := (hour.append_same [':']).append_zeroPadded (by decide : 0 < 2) (by decide : 60 ≤ 10 ^ 2)
    (Nat.mod_lt (t.seconds / 60) (by decide)) (Nat.mod_lt (u.seconds / 60) (by decide))
  have second := (minute.append_same [':']).append_zeroPadded (by decide : 0 < 2) (by decide : 60 ≤ 10 ^ 2)
    (Nat.mod_lt t.seconds (by decide)) (Nat.mod_lt u.seconds (by decide))
  rw [toList_text, toList_text, milliseconds_eq, milliseconds_eq]
  exact (second.append_same ['.']).append_zeroPadded (by decide) (by decide) ht.milliseconds_lt hu.milliseconds_lt

theorem length_text (h : t.FourDigits) : t.text.length = 23 := by
  have start : FourDigits ⟨0, 0⟩ := ⟨by rw [Calendar.daysSinceEpoch_afterFourDigits]; decide, by decide⟩
  have equal := (sorts_text h start).length
  have first : (⟨0, 0⟩ : Instant).text = "1970-01-01 00:00:00.000" := by decide
  rw [first] at equal
  exact String.length_toList.symm.trans equal

end Instant

def Style.tag (style : Style) (level : Level) : String :=
  if style.level then s!"[{Text.padRight 5 level.name}] " else ""

theorem exists_line_eq (terminal : Terminal) {style : Style} (h : style.timestamp) (level : Level)
    (target message : String) : ∃ rest, ∀ now, line terminal style now level target message =
      terminal.put level.paint ++ now.text ++ " " ++ style.tag level ++ rest := by
  refine ⟨(if style.target then target ++ ": " else "") ++ message ++ "\n" ++ terminal.reset, ?_⟩
  intro now
  simp only [line, Style.tag, h, if_true, toString, String.append_assoc]

/-- Plain lines that are stamped sort as the clock ran, whatever else is in them. -/
theorem line_lt_line {style : Style} (hs : style.timestamp) {t u : Instant} (ht : t.FourDigits) (hu : u.FourDigits)
    (h : t.milliseconds < u.milliseconds) (level level' : Level) (target target' message message' : String) :
    line .plain style t level target message < line .plain style u level' target' message' := by
  obtain ⟨rest, hline⟩ := exists_line_eq .plain hs level target message
  obtain ⟨rest', hline'⟩ := exists_line_eq .plain hs level' target' message'
  rw [hline, hline']
  simp only [Terminal.plain, String.empty_append, String.append_assoc]
  exact (Instant.sorts_text ht hu).append_lt h _ _

structure Chronological (t u : Instant) : Prop where
  written : ∀ (terminal : Terminal) (style : Style), style.timestamp → ∀ level target message, ∃ rest,
    ∀ now ∈ [t, u], line terminal style now level target message =
      terminal.put level.paint ++ now.text ++ " " ++ style.tag level ++ rest
  length : t.text.length = 23 ∧ u.text.length = 23
  lt_iff : t.text < u.text ↔ t.milliseconds < u.milliseconds
  eq_iff : t.text = u.text ↔ t.milliseconds = u.milliseconds

theorem chronological_of_fourDigits {t u : Instant} (ht : t.FourDigits) (hu : u.FourDigits) : Chronological t u where
  written := by
    intro terminal style h level target message
    obtain ⟨rest, hrest⟩ := exists_line_eq terminal h level target message
    exact ⟨rest, fun now _ => hrest now⟩
  length := ⟨Instant.length_text ht, Instant.length_text hu⟩
  lt_iff := String.lt_iff.trans (Instant.sorts_text ht hu).lt_iff
  eq_iff := String.toList_inj.symm.trans (Instant.sorts_text ht hu).eq_iff

/-- The last millisecond before a leap day, and the last second whose year has four digits. -/
theorem chronological_from_leapDay : Chronological ⟨951782399, 999999999⟩ ⟨253402300799, 0⟩ := by
  apply chronological_of_fourDigits
  · exact ⟨by rw [Calendar.daysSinceEpoch_afterFourDigits]; decide, by decide⟩
  · exact ⟨by rw [Calendar.daysSinceEpoch_afterFourDigits]; decide, by decide⟩

end PCode.Log
