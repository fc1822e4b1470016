import PCode.Text.Replace
import Mathlib.Data.List.Infix
/-!
Where a text stops, and whether another text occurs in it.
-/

namespace PCode.Text

variable {a b s t : List Char} {x y : Char}

/-- The parts before the first stop are told from the stops and from what comes after them. -/
theorem append_stop_inj {stops : Char → Prop} (ha : ∀ c ∈ a, ¬stops c) (hb : ∀ c ∈ b, ¬stops c)
    (hx : stops x) (hy : stops y) : a ++ x :: s = b ++ y :: t ↔ a = b ∧ x = y ∧ s = t := by
  induction a generalizing b with
  | nil =>
    cases b with
    | nil => simp
    | cons e b =>
      have he := (List.forall_mem_cons.mp hb).1
      have apart : x ≠ e := fun h => he (h ▸ hx)
      simp [apart]
  | cons d a ih =>
    obtain ⟨hd, ha⟩ := List.forall_mem_cons.mp ha
    cases b with
    | nil =>
      have apart : d ≠ y := fun h => hd (h ▸ hy)
      simp [apart]
    | cons e b =>
      have hb := (List.forall_mem_cons.mp hb).2
      simp [ih ha hb, and_assoc]

theorem occurs_iff {pattern text : List Char} : occurs pattern text ↔ pattern <:+: text := by
  induction text with
  | nil => simp [occurs]
  | cons c text ih =>
    simp only [occurs, Bool.or_eq_true, List.isPrefixOf_iff_prefix, ih]
    exact List.infix_cons_iff.symm

end PCode.Text
