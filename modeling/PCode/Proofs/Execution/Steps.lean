import PCode.Machine.Execute
import Mathlib.Logic.Unique
import Mathlib.Tactic.Simproc.ExistsAndEq
/-!
The steps that instructions are made of: when each of them succeeds or fails, and the core it leaves.
-/

namespace PCode.Core

variable {α β : Type} {c d : Core} {e : Error} {w : Word} {program : Program}

@[simp]
theorem exists_unit_iff {p : Unit → Prop} : (∃ u, p u) ↔ p () := Unique.exists_iff

@[simp]
theorem bind_eq_ok_iff {x : Exec α} {f : α → Exec β} {b : β} :
    (x >>= f) c = .ok b d ↔ ∃ a c', x c = .ok a c' ∧ f a c' = .ok b d := by
  simp only [bind, EStateM.bind]
  cases x c with
  | ok a c' => simp only [EStateM.Result.ok.injEq, ↓existsAndEq, and_true, true_and]
  | error e c' => simp only [reduceCtorEq, false_and, exists_false]

@[simp]
theorem bind_eq_error_iff {x : Exec α} {f : α → Exec β} :
    (x >>= f) c = .error e d ↔ x c = .error e d ∨ ∃ a c', x c = .ok a c' ∧ f a c' = .error e d := by
  simp only [bind, EStateM.bind]
  cases x c with
  | ok a c' => simp only [EStateM.Result.ok.injEq, reduceCtorEq, ↓existsAndEq, and_true, true_and, false_or]
  | error e c' => simp only [EStateM.Result.error.injEq, reduceCtorEq, false_and, exists_false, or_false]

@[simp]
theorem pure_eq_ok_iff {a b : α} : (pure a : Exec α) c = .ok b d ↔ a = b ∧ c = d := by
  simp only [pure, EStateM.pure, EStateM.Result.ok.injEq]

@[simp]
theorem pure_ne_error {a : α} : (pure a : Exec α) c ≠ .error e d := nofun

@[simp]
theorem map_eq_ok_iff {x : Exec α} {f : α → β} {b : β} :
    (f <$> x) c = .ok b d ↔ ∃ a, x c = .ok a d ∧ f a = b := by
  rw [← bind_pure_comp, bind_eq_ok_iff]
  simp only [pure_eq_ok_iff, ↓existsAndEq, and_true]

@[simp]
theorem map_eq_error_iff {x : Exec α} {f : α → β} : (f <$> x) c = .error e d ↔ x c = .error e d := by
  rw [← bind_pure_comp, bind_eq_error_iff]
  simp only [pure_ne_error, and_false, exists_false, or_false]

@[simp]
theorem ite_eq_ok_iff {p : Prop} [Decidable p] {x y : Exec α} {a : α} :
    (if p then x else y) c = .ok a d ↔ p ∧ x c = .ok a d ∨ ¬p ∧ y c = .ok a d := by
  split <;> simp [*]

@[simp]
theorem ite_eq_error_iff {p : Prop} [Decidable p] {x y : Exec α} :
    (if p then x else y) c = .error e d ↔ p ∧ x c = .error e d ∨ ¬p ∧ y c = .error e d := by
  split <;> simp [*]

@[simp]
theorem get_eq_ok_iff {b : Core} : (get : Exec Core) c = .ok b d ↔ c = b ∧ c = d := by
  change EStateM.Result.ok c c = .ok b d ↔ _
  simp only [EStateM.Result.ok.injEq]

@[simp]
theorem get_ne_error : (get : Exec Core) c ≠ .error e d := nofun

@[simp]
theorem modify_eq_ok_iff {f : Core → Core} {u : Unit} : (modify f : Exec Unit) c = .ok u d ↔ f c = d := by
  change EStateM.Result.ok () (f c) = .ok u d ↔ _
  simp only [EStateM.Result.ok.injEq, true_and]

@[simp]
theorem modify_ne_error {f : Core → Core} : (modify f : Exec Unit) c ≠ .error e d := nofun

@[simp]
theorem ask_eq_ok_iff {f : Core → Except Error α} {a : α} : ask f c = .ok a d ↔ f c = .ok a ∧ c = d := by
  unfold ask
  split <;> simp_all

@[simp]
theorem ask_eq_error_iff {f : Core → Except Error α} : ask f c = .error e d ↔ f c = .error e ∧ c = d := by
  unfold ask
  split <;> simp_all

@[simp]
theorem update_eq_ok_iff {f : Stack → EStateM.Result Error Stack α} {a : α} :
    update f c = .ok a d ↔ ∃ s, f c.stack = .ok a s ∧ { c with stack := s } = d := by
  obtain ⟨pc, base, stack⟩ := c
  cases h : f stack <;> simp [update, h]

@[simp]
theorem update_eq_error_iff {f : Stack → EStateM.Result Error Stack α} :
    update f c = .error e d ↔ ∃ s, f c.stack = .error e s ∧ { c with stack := s } = d := by
  obtain ⟨pc, base, stack⟩ := c
  cases h : f stack <;> simp [update, h]

@[simp]
theorem pop_eq_ok_iff : pop c = .ok w d ↔ ∃ s, c.stack.pop = .ok w s ∧ { c with stack := s } = d :=
  update_eq_ok_iff

@[simp]
theorem pop_eq_error_iff : pop c = .error e d ↔ ∃ s, c.stack.pop = .error e s ∧ { c with stack := s } = d :=
  update_eq_error_iff

end PCode.Core
