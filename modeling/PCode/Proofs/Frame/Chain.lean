import Mathlib.Data.List.Chain
import PCode.Frame
/-!
The chain of frame bases. From any base it follows the words in the cells as long as each leads further down, and
it stops nowhere else.
-/

namespace PCode.Frame

variable {cells cells' : Array Word} {base next a b : Nat} {frames rest : List Nat}

def Leads (cells : Array Word) (a b : Nat) : Prop := ∃ w, cells[a]? = some w ∧ w.toInt = b

/-- No cell leads down from `a`. -/
def Stuck (cells : Array Word) (a : Nat) : Prop :=
  a = globalBase ∨ cells.size ≤ a ∨ ∃ w, cells[a]? = some w ∧ (w.toInt < 0 ∨ a ≤ w.toInt)

/-- The bases that the cells lead down through from `base`, as far as they lead. -/
structure Descent (cells : Array Word) (base : Nat) (frames : List Nat) : Prop where
  head : frames.head? = some base
  below : frames.Pairwise (· > ·)
  linked : frames.IsChain (Leads cells)
  last : ∀ a, frames.getLast? = some a → Stuck cells a

theorem caller?_eq_some_iff : caller? cells base = some next ↔ Leads cells base next ∧ next < base := by
  have hindex : (cells[base]?.bind Word.toIndex?) = some next ↔ Leads cells base next := by
    simp only [Leads, Option.bind_eq_some_iff, Word.toIndex?_eq_some_iff]
  rw [← hindex]
  unfold caller?
  split
  next n hn =>
    rw [hn, Option.ite_none_right_eq_some, Option.some.injEq]
    constructor
    · rintro ⟨hlt, rfl⟩
      exact ⟨rfl, hlt⟩
    · rintro ⟨rfl, hlt⟩
      exact ⟨hlt, rfl⟩
  next hn => simp only [hn, reduceCtorEq, false_and]

theorem caller?_eq_none_iff : caller? cells base = none ↔ Stuck cells base := by
  rw [Option.eq_none_iff_forall_ne_some]
  simp only [ne_eq, caller?_eq_some_iff, Leads, Stuck, globalBase]
  cases hc : cells[base]? with
  | none =>
    have hs := Array.getElem?_eq_none_iff.mp hc
    simp [hs]
  | some w =>
    have hs : base < cells.size := (Array.getElem?_eq_some_iff.mp hc).1
    simp only [Option.some.injEq, exists_eq_left', Nat.not_le.mpr hs, false_or, not_and, Nat.not_lt]
    constructor
    · intro h
      have hn := h w.toInt.toNat
      omega
    · intro h n hn
      omega

theorem chain_of_caller (h : caller? cells base = some next) : chain cells base = base :: chain cells next := by
  rw [chain]
  split
  next n hn => rw [Option.some.inj (h.symm.trans hn)]
  next hn => cases h.symm.trans hn

theorem chain_of_stuck (h : Stuck cells base) : chain cells base = [base] := by
  have hn := caller?_eq_none_iff.mpr h
  rw [chain]
  split
  next n hc => cases hn.symm.trans hc
  next => rfl

theorem descent_singleton_iff : Descent cells base [a] ↔ a = base ∧ Stuck cells a := by
  constructor
  · intro h
    exact ⟨Option.some.inj h.head, h.last a rfl⟩
  · rintro ⟨rfl, h⟩
    refine ⟨rfl, List.pairwise_singleton _ _, .singleton _, ?_⟩
    intro b hb
    obtain rfl := Option.some.inj hb
    exact h

theorem descent_cons_cons_iff :
    Descent cells base (a :: b :: rest) ↔ a = base ∧ caller? cells a = some b ∧ Descent cells b (b :: rest) := by
  rw [caller?_eq_some_iff]
  constructor
  · intro h
    have hb := List.pairwise_cons.mp h.below
    have hl := List.isChain_cons_cons.mp h.linked
    refine ⟨Option.some.inj h.head, ⟨hl.1, hb.1 b List.mem_cons_self⟩, rfl, hb.2, hl.2, ?_⟩
    intro c hc
    exact h.last c (by rwa [List.getLast?_cons_cons])
  · rintro ⟨rfl, ⟨hleads, hlt⟩, h⟩
    refine ⟨rfl, ?_, List.isChain_cons_cons.mpr ⟨hleads, h.linked⟩, ?_⟩
    · rw [← List.isChain_iff_pairwise, List.isChain_cons_cons, List.isChain_iff_pairwise]
      exact ⟨hlt, h.below⟩
    · intro c hc
      exact h.last c (by rwa [List.getLast?_cons_cons] at hc)

theorem caller?_congr (h : cells'[a]? = cells[a]?) : caller? cells' a = caller? cells a := by
  rw [caller?, caller?, h]

theorem Descent.cons (hc : caller? cells base = some next) (h : Descent cells next frames) :
    Descent cells base (base :: frames) := by
  cases frames with
  | nil => cases h.head
  | cons a rest =>
    obtain rfl := Option.some.inj h.head
    exact descent_cons_cons_iff.mpr ⟨rfl, hc, h⟩

theorem descent_chain (cells : Array Word) (base : Nat) : Descent cells base (chain cells base) := by
  induction base using Nat.strongRecOn with
  | ind base ih =>
    cases hc : caller? cells base with
    | none =>
      have hs := caller?_eq_none_iff.mp hc
      rw [chain_of_stuck hs]
      exact descent_singleton_iff.mpr ⟨rfl, hs⟩
    | some next =>
      rw [chain_of_caller hc]
      exact (ih next (caller?_lt hc)).cons hc

theorem Descent.eq_chain (h : Descent cells base frames) : frames = chain cells base := by
  induction frames generalizing base with
  | nil => cases h.head
  | cons a rest ih =>
    cases rest with
    | nil =>
      obtain ⟨rfl, hs⟩ := descent_singleton_iff.mp h
      exact (chain_of_stuck hs).symm
    | cons b rest =>
      obtain ⟨rfl, hc, h⟩ := descent_cons_cons_iff.mp h
      rw [chain_of_caller hc, ← ih h]

theorem Descent.length_le (h : Descent cells base frames) : frames.length ≤ base + 1 := by
  induction frames generalizing base with
  | nil => exact Nat.zero_le _
  | cons a rest ih =>
    cases rest with
    | nil => exact Nat.le_add_left 1 base
    | cons b rest =>
      obtain ⟨rfl, hc, h⟩ := descent_cons_cons_iff.mp h
      have hlt := caller?_lt hc
      have hle := ih h
      rw [List.length_cons]
      omega

theorem Descent.of_cells (h : Descent cells base frames)
    (same : ∀ a ∈ frames, a ≠ globalBase → cells'[a]? = cells[a]?) : Descent cells' base frames := by
  induction frames generalizing base with
  | nil => cases h.head
  | cons a rest ih =>
    have here : caller? cells' a = caller? cells a := by
      by_cases ha : a = globalBase
      · rw [caller?_eq_none_iff.mpr (.inl ha), caller?_eq_none_iff.mpr (.inl ha)]
      · exact caller?_congr (same a List.mem_cons_self ha)
    cases rest with
    | nil =>
      obtain ⟨rfl, hs⟩ := descent_singleton_iff.mp h
      rw [← caller?_eq_none_iff, ← here, caller?_eq_none_iff] at hs
      exact descent_singleton_iff.mpr ⟨rfl, hs⟩
    | cons b rest =>
      obtain ⟨rfl, hc, h⟩ := descent_cons_cons_iff.mp h
      rw [← here] at hc
      apply Descent.cons hc
      apply ih h
      intro c hm
      exact same c (List.mem_cons_of_mem _ hm)

/-- Nothing but the chain goes down as far as the cells lead, and it depends on no cells but those of its bases. -/
theorem chain_descends (cells : Array Word) (base : Nat) :
    (∀ frames, frames = chain cells base ↔ Descent cells base frames) ∧
      (chain cells base).Nodup ∧ (chain cells base).length ≤ base + 1 ∧
      ∀ cells', (∀ a ∈ chain cells base, a ≠ globalBase → cells'[a]? = cells[a]?) →
        chain cells' base = chain cells base := by
  have h := descent_chain cells base
  refine ⟨?_, ?_, h.length_le, ?_⟩
  · intro frames
    constructor
    · rintro rfl
      exact h
    · exact Descent.eq_chain
  · exact h.below.imp Nat.ne_of_gt
  · intro cells' same
    exact (h.of_cells same).eq_chain.symm

end PCode.Frame
