import PCode.Text.Blank
import Mathlib.Data.List.DropRight
/-!
Blank margins. To trim a text is to take off its margins, of which the inside has no part.
-/

namespace PCode.Text

variable {cs inner : List Char}

def Blank (cs : List Char) : Prop := ∀ c ∈ cs, isBlank c

def Unbroken (cs : List Char) : Prop := ∀ c ∈ cs, !isBlank c

/-- `inner` with blanks before and after it. -/
inductive Enclosed (inner : List Char) : List Char → Prop
  | margins {left right : List Char} (hl : Blank left) (hr : Blank right) : Enclosed inner (left ++ inner ++ right)

theorem trim_eq_rdropWhile (cs : List Char) : trim cs = (cs.dropWhile isBlank).rdropWhile isBlank := rfl

theorem enclosed_trim (cs : List Char) : Enclosed (trim cs) cs := by
  have front := List.takeWhile_append_dropWhile (p := isBlank) (l := cs)
  have back : trim cs ++ (cs.dropWhile isBlank).rtakeWhile isBlank = _ := List.rdropWhile_append_rtakeWhile
  have h : Enclosed (trim cs) (cs.takeWhile isBlank ++ trim cs ++ (cs.dropWhile isBlank).rtakeWhile isBlank) := by
    apply Enclosed.margins
    · exact fun _ => List.mem_takeWhile_imp
    · exact fun _ => List.mem_rtakeWhile_imp
  rwa [List.append_assoc, back, front] at h

theorem rdropWhile_append_blank {right : List Char} (h : Blank right) (cs : List Char) :
    (cs ++ right).rdropWhile isBlank = cs.rdropWhile isBlank := by
  have hr : ∀ c ∈ right.reverse, isBlank c := fun c hc => h c (List.mem_reverse.mp hc)
  rw [List.rdropWhile, List.reverse_append, List.dropWhile_append_of_pos hr, List.rdropWhile]

theorem trim_of_enclosed (h : Unbroken inner) (enclosed : Enclosed inner cs) : trim cs = inner := by
  obtain ⟨hl, hr⟩ := enclosed
  rw [trim_eq_rdropWhile, List.append_assoc, List.dropWhile_append_of_pos hl]
  cases inner with
  | nil => rw [List.nil_append, List.dropWhile_eq_nil_iff.mpr hr, List.rdropWhile_nil]
  | cons c inner =>
    have solid {d : Char} (hd : d ∈ c :: inner) : ¬isBlank d := by simpa using h d hd
    rw [List.cons_append, List.dropWhile_cons_of_neg (solid List.mem_cons_self), ← List.cons_append,
      rdropWhile_append_blank hr, List.rdropWhile_eq_self_iff]
    exact fun hne => solid (List.getLast_mem hne)

end PCode.Text
