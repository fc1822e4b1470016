import PCode.Proofs.Text.Margin
import PCode.Settings
import Mathlib
/-!
The spellings of flags, which may be in capitals.
-/

namespace PCode.Settings

variable {cs : List Char} {on : Bool}

def spellings (on : Bool) : List String := if on then onSpellings else offSpellings

/-- In lower case it is one of the spellings. -/
def Flags (cs : List Char) (on : Bool) : Prop := String.ofList (cs.map Char.toLower) ∈ spellings on

/-- Each of the letters is as in `spelling`, or the capital of it. -/
def Cased (spelling cs : List Char) : Prop := List.Forall₂ (fun s c => c = s ∨ c = s.toUpper) spelling cs

theorem eq_or_eq_toUpper_toLower (c : Char) : c = c.toLower ∨ c = c.toLower.toUpper := by
  by_cases h : c.isUpper
  · right
    rw [Char.toUpper_toLower_eq_toUpper, Char.toUpper_eq_of_not_isLower (Char.not_isLower_of_isUpper h)]
  · left
    rw [Char.toLower_eq_of_not_isUpper h]

theorem toLower_of_isBlank {c : Char} (h : Text.isBlank c) : c.toLower = c := by
  apply Char.toLower_eq_of_not_isUpper
  simp [Text.isBlank, Char.isUpper, UInt32.le_iff_toNat_le] at h ⊢
  omega

theorem mem_of_mem_spellings {spelling : String} (h : spelling ∈ spellings on) :
    spelling ∈ onSpellings ++ offSpellings := by
  cases on with
  | true => exact List.mem_append_left _ h
  | false => exact List.mem_append_right _ h

theorem lower_of_spelling {spelling : String} (h : spelling ∈ spellings on) :
    spelling.toList.map Char.toLower = spelling.toList := by
  have lower : ∀ s ∈ onSpellings ++ offSpellings, s.toList.map Char.toLower = s.toList := by decide
  exact lower spelling (mem_of_mem_spellings h)

theorem unbroken_of_spelling {spelling : String} (h : spelling ∈ spellings on) : Text.Unbroken spelling.toList := by
  have solid : ∀ s ∈ onSpellings ++ offSpellings, s.toList.all fun c => !Text.isBlank c := by decide
  exact List.all_eq_true.mp (solid spelling (mem_of_mem_spellings h))

theorem flags_iff : Flags cs on ↔ ∃ spelling ∈ spellings on, Cased spelling.toList cs := by
  constructor
  · intro h
    refine ⟨_, h, ?_⟩
    rw [String.toList_ofList, Cased, List.forall₂_map_left_iff, List.forall₂_same]
    intro c _
    exact eq_or_eq_toUpper_toLower c
  · rintro ⟨spelling, hs, cased⟩
    have lower : List.Forall₂ Eq (spelling.toList.map Char.toLower) (cs.map Char.toLower) := by
      rw [List.forall₂_map_left_iff, List.forall₂_map_right_iff]
      apply cased.imp
      rintro s c (rfl | rfl)
      · rfl
      · exact (Char.toLower_toUpper_eq_toLower s).symm
    rw [List.forall₂_eq_eq_eq, lower_of_spelling hs] at lower
    rwa [Flags, ← lower, String.ofList_toList]

theorem Flags.unbroken (h : Flags cs on) : Text.Unbroken cs := by
  intro c hc
  have lower := unbroken_of_spelling h
  rw [String.toList_ofList] at lower
  have hl := lower c.toLower (List.mem_map_of_mem hc)
  by_contra blank
  rw [Bool.not_eq_true', Bool.not_eq_false] at blank
  rw [toLower_of_isBlank blank, blank] at hl
  cases hl

end PCode.Settings
