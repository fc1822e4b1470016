import PCode.Proofs.Session.History
/-!
What a step depends on. Of its channel it sees nothing but the answers, and its journal it only writes.
-/

namespace PCode.Session

variable {σ τ : Type} [Channel σ] [Channel τ] {m : Machine} {channel channel' : σ} {other other' : τ}
  {i : Instruction} {result : EStateM.Result Error Core (Option HaltReason)}

theorem step_congr_of_idle (journal : Journal) (idle : m.next? = none) (channel : σ) (other : τ) :
    let t := (⟨m, channel, journal⟩ : Session σ).step
    t.2.channel = channel ∧ (⟨m, other, journal⟩ : Session τ).step = (t.1, ⟨t.2.machine, other, t.2.journal⟩) := by
  intro t
  have h : Stepped ⟨m, channel, journal⟩ t.1 t.2 := stepped _
  generalize t.1 = r, t.2 = u at h
  cases h with
  | halted halted => exact ⟨rfl, step_of_halted halted⟩
  | faulted faulted held => exact ⟨rfl, step_of_faulted faulted held⟩
  | unfetched live fetch snapshot =>
    have h := Stepped.unfetched (s := ⟨m, other, journal⟩) live fetch snapshot
    exact ⟨rfl, h.step_eq⟩
  | proceeded next | stopped next | failed next =>
    rw [idle] at next
    cases next

/-- A step depends on the channel by nothing but what the instruction gets back from it. -/
theorem step_congr (journal : Journal) (next : m.next? = some i)
    (same : perform m.program i m.core.next channel = (result, channel'))
    (same' : perform m.program i m.core.next other = (result, other')) :
    let t := (⟨m, channel, journal⟩ : Session σ).step
    t.2.channel = channel' ∧ (⟨m, other, journal⟩ : Session τ).step = (t.1, ⟨t.2.machine, other', t.2.journal⟩) := by
  have live := (Machine.next?_eq_some_iff.mp next).1
  have hs := cycle_start_of_next (s := ⟨m, channel, journal⟩) next
  have ho := cycle_start_of_next (s := ⟨m, other, journal⟩) next
  rw [same] at hs
  rw [same'] at ho
  rw [step_of_live live, step_of_live live, advance, advance, hs, ho]
  rcases result with ⟨_ | reason, core⟩ | ⟨e, core⟩ <;> exact ⟨rfl, rfl⟩

/-- The same machine at the same channel, whatever was reported before. -/
structure Same (s t : Session σ) : Prop where
  machine : t.machine = s.machine
  channel : t.channel = s.channel

variable {s t u : Session σ} {r : Except Fault Machine.State}

omit [Channel σ] in
theorem Same.symm (h : Same s t) : Same t s := ⟨h.machine.symm, h.channel.symm⟩

omit [Channel σ] in
theorem Same.trans (h : Same s t) (h' : Same t u) : Same s u :=
  ⟨h'.machine.trans h.machine, h'.channel.trans h.channel⟩

theorem Stepped.same (hs : Stepped s r u) (h : Same s t) : ∃ v, Stepped t r v ∧ Same u v := by
  obtain ⟨m, channel, journal⟩ := t
  obtain ⟨rfl, rfl⟩ : m = s.machine ∧ channel = s.channel := ⟨h.machine, h.channel⟩
  cases hs with
  | halted halted => exact ⟨_, .halted halted, h⟩
  | faulted faulted held => exact ⟨_, .faulted faulted held, h⟩
  | unfetched live fetch snapshot => exact ⟨_, .unfetched live fetch snapshot, rfl, rfl⟩
  | proceeded next performs => exact ⟨_, .proceeded next performs, rfl, rfl⟩
  | stopped next performs => exact ⟨_, .stopped next performs, rfl, rfl⟩
  | failed next performs snapshot => exact ⟨_, .failed next performs snapshot, rfl, rfl⟩

theorem Same.step (h : Same s t) : t.step.1 = s.step.1 ∧ Same s.step.2 t.step.2 := by
  obtain ⟨v, hv, same⟩ := (stepped s).same h
  rw [hv.step_eq]
  exact ⟨rfl, same⟩

theorem Same.after (h : Same s t) (n : Nat) : Same (s.after n) (t.after n) := by
  induction n with
  | zero => exact h
  | succ n ih =>
    rw [after_succ', after_succ']
    exact ih.step.2

omit [Channel σ] in
theorem same_announce (s : Session σ) : Same s s.announce := by
  unfold announce
  split <;> exact ⟨rfl, rfl⟩

/-- Apart from the report that it starts, a run does what as many steps do. -/
theorem same_of_run {fuel : Nat} {r : Except Fault Summary} (h : s.run fuel = some (r, t)) :
    Same (s.after fuel) t := by
  rw [finish_eq_after h]
  exact s.same_announce.after fuel

theorem exists_run_iff {n : Nat} {r : Except Fault Summary} :
    (∃ t, s.run (n + 1) = some (r, t)) ↔ (s.after (n + 1)).machine.outcome? = some r := by
  rw [← (s.same_announce.after (n + 1)).machine, run, finish_succ]
  cases (s.announce.after (n + 1)).machine.outcome? <;> simp

end PCode.Session
