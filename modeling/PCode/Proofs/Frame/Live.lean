import PCode.Instruction.Encoding
import PCode.Program
import PCode.Proofs.Frame.Chain
import PCode.Proofs.Frame.Walk
/-!
Live frames. Their dynamic links lead down to the global frame, their static links lead from each of
them to one further down, and each returns behind a call.
-/

namespace PCode

def Program.CallsAt (program : Program) (n : Nat) : Prop :=
  ∃ t level target, program.get? n = some t ∧ t.decode = .ok (.cal level target)

namespace Frame

/-- The frames of a stack from the innermost, in good order. -/
inductive Live (program : Program) (s : Stack) : List Nat → Prop
  | global : Live program s [globalBase]
  | frame {base caller declaring next rest} (below : caller + headerSize ≤ base)
      (dynamic : link s base dynamicLink = .ok caller) (static : link s base staticLink = .ok declaring)
      (declared : declaring ∈ caller :: rest) (address : link s base returnAddress = .ok next)
      (positive : 1 ≤ next) (returns : program.CallsAt (next - 1)) (outer : Live program s (caller :: rest)) :
    Live program s (base :: caller :: rest)

variable {program : Program} {s t : Stack} {frames rest : List Nat} {base f g level : Nat}
  {exhausted e : Error}

theorem Live.le_base (h : Live program s (base :: rest)) (hf : f ∈ base :: rest) : f ≤ base := by
  generalize hl : base :: rest = frames at h hf
  induction h generalizing base rest with
  | global =>
    obtain ⟨rfl, rfl⟩ := List.cons.inj hl
    exact Nat.le_of_eq (List.mem_singleton.mp hf)
  | @frame _ caller _ _ rest' below _ _ _ _ _ _ _ ih =>
    obtain ⟨rfl, rfl⟩ := List.cons.inj hl
    rcases List.mem_cons.mp hf with rfl | hf
    · exact Nat.le_refl _
    · have := ih rfl hf
      omega

theorem leads_of_link (h : link s base dynamicLink = .ok f) : Leads s.cells base f := by
  obtain ⟨w, hw, hi⟩ := link_eq_ok_iff.mp h
  exact ⟨w, hw, Word.toIndex?_eq_some_iff.mp hi⟩

theorem Live.descent (h : Live program s (base :: rest)) : Descent s.cells base (base :: rest) := by
  generalize hl : base :: rest = frames at h
  induction h generalizing base rest with
  | global =>
    obtain ⟨rfl, rfl⟩ := List.cons.inj hl
    exact descent_singleton_iff.mpr ⟨rfl, .inl rfl⟩
  | @frame _ caller _ _ _ below dynamic _ _ _ _ _ _ ih =>
    obtain ⟨rfl, rfl⟩ := List.cons.inj hl
    have hlt : caller < base := by
      simp only [headerSize] at below
      omega
    have hc := caller?_eq_some_iff.mpr ⟨leads_of_link dynamic, hlt⟩
    exact (ih rfl).cons hc

theorem Live.chain_eq (h : Live program s (base :: rest)) : chain s.cells base = base :: rest :=
  h.descent.eq_chain.symm

theorem Live.of_cells (h : Live program s frames)
    (cells : ∀ f ∈ frames, f ≠ globalBase → ∀ slot < headerSize, t.cells[f + slot]? = s.cells[f + slot]?) :
    Live program t frames := by
  induction h with
  | global => exact .global
  | @frame base caller _ _ _ below dynamic static declared address positive returns _ ih =>
    have inner : base ≠ globalBase := by
      simp only [headerSize, globalBase] at *
      omega
    have here := cells base List.mem_cons_self inner
    have dynamic' := link_of_cell (here dynamicLink (by decide)) dynamic
    have static' := link_of_cell (here staticLink (by decide)) static
    have address' := link_of_cell (here returnAddress (by decide)) address
    apply Live.frame below dynamic' static' declared address' positive returns
    apply ih
    intro f hf
    exact cells f (List.mem_cons_of_mem _ hf)

theorem Live.of_patched {n : Nat} {stores : List (Nat × Word)} (h : Live program s (base :: rest))
    (hp : s.Patched n stores t) (hn : base + headerSize ≤ n)
    (spared : ∀ f ∈ base :: rest, f ≠ globalBase → ∀ slot < headerSize, stores.lookup (f + slot) = none) :
    Live program t (base :: rest) := by
  apply h.of_cells
  intro f hf inner slot hslot
  have hlt : f + slot < n := by
    have := h.le_base hf
    omega
  rw [hp.cells _ hlt, spared f hf inner slot hslot, Option.none_or]

theorem Live.of_agrees {n : Nat} (h : Live program s (base :: rest)) (ha : s.Agrees n t)
    (hn : base + headerSize ≤ n) : Live program t (base :: rest) :=
  h.of_patched ha.patched hn fun _ _ _ _ _ => rfl

theorem Live.links (h : Live program s frames) (hf : f ∈ frames) (inner : f ≠ globalBase) :
    ∃ caller declaring next, caller + headerSize ≤ f ∧ link s f dynamicLink = .ok caller ∧
      link s f staticLink = .ok declaring ∧ declaring ∈ frames ∧ declaring < f ∧
      link s f returnAddress = .ok next ∧ 1 ≤ next ∧ program.CallsAt (next - 1) := by
  induction h with
  | global => exact absurd (List.mem_singleton.mp hf) inner
  | @frame base caller declaring next _ below dynamic static declared address positive returns outer ih =>
    rcases List.mem_cons.mp hf with rfl | hf
    · have hle := outer.le_base declared
      have hlt : declaring < f := by
        simp only [headerSize] at below
        omega
      exact ⟨caller, declaring, next, below, dynamic, static, List.mem_cons_of_mem _ declared, hlt, address,
        positive, returns⟩
    · obtain ⟨c, d, n, hb, hd, hs, hm, hr⟩ := ih hf
      exact ⟨c, d, n, hb, hd, hs, List.mem_cons_of_mem _ hm, hr⟩

theorem Live.mem_of_outward (h : Live program s frames) (hf : f ∈ frames) (ho : Outward s f level g) :
    g ∈ frames := by
  induction ho with
  | here => exact hf
  | out inner static _ ih =>
    obtain ⟨_, declaring, _, _, _, hs, hm, _⟩ := h.links hf inner
    obtain rfl := Except.ok.inj (static.symm.trans hs)
    exact ih hm

theorem Live.outward (h : Live program s frames) (hf : f ∈ frames) : ∃ n, Outward s f n globalBase := by
  induction f using Nat.strongRecOn with
  | ind f ih =>
    by_cases hz : f = globalBase
    · subst hz
      exact ⟨0, .here⟩
    · obtain ⟨_, declaring, _, _, _, hs, hm, hlt, _⟩ := h.links hf hz
      obtain ⟨n, hn⟩ := ih declaring hlt hm
      exact ⟨n + 1, .out hz hs hn⟩

theorem Live.climb_eq_error (h : Live program s frames) (hf : f ∈ frames)
    (he : climb s exhausted level f = .error e) : e = exhausted := by
  induction level generalizing f with
  | zero => cases he
  | succ level ih =>
    simp only [climb] at he
    split at he
    · exact (Except.error.inj he).symm
    · next inner =>
      obtain ⟨_, declaring, _, _, _, hs, hm, _⟩ := h.links hf inner
      rw [hs] at he
      exact ih hm he

theorem Live.isChain (h : Live program s frames) :
    frames.IsChain fun a b => link s a dynamicLink = .ok b ∧ b + headerSize ≤ a := by
  induction h with
  | global => exact .singleton _
  | frame below dynamic _ _ _ _ _ _ ih => exact .cons_cons ⟨dynamic, below⟩ ih

theorem Live.getLast?_eq (h : Live program s frames) : frames.getLast? = some globalBase := by
  induction h with
  | global => rfl
  | frame _ _ _ _ _ _ _ _ ih => rw [List.getLast?_cons_cons, ih]

end Frame
end PCode
