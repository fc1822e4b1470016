import PCode.Proofs.Session.Run
/-!
Observing a machine. Neither the trace that it keeps nor the journal that it reports to makes a difference
to what it does.
-/

namespace PCode

namespace Machine

variable {m : Machine} {r : Except Fault Summary}

def untraced (m : Machine) : Machine := { m with settings := { m.settings with trace := false }, trace := none }

theorem fetch_untraced (m : Machine) : m.untraced.fetch = (m.fetch.1, m.fetch.2.untraced) :=
  fetch_map (f := untraced) rfl rfl rfl rfl

theorem next?_untraced (m : Machine) : m.untraced.next? = m.next? := by
  unfold next?
  rw [fetch_untraced]
  rfl

theorem untraced_reset (m : Machine) : m.reset.untraced = m.untraced.reset := rfl

end Machine

namespace Session

variable {σ : Type} [Channel σ] {s t u : Session σ}

def untraced (s : Session σ) : Session σ := { s with machine := s.machine.untraced }

theorem Stepped.untraced {r : Except Fault Machine.State} (h : Stepped s r t) : Stepped s.untraced r t.untraced := by
  have hn := Machine.next?_untraced s.machine
  cases h with
  | halted halted => exact .halted halted
  | faulted faulted held => exact .faulted faulted held
  | unfetched live fetch snapshot =>
    have hf := Machine.fetch_untraced s.machine
    rw [fetch] at hf
    exact .unfetched (s := s.untraced) live hf snapshot
  | proceeded next performs => exact .proceeded (hn.trans next) performs
  | stopped next performs => exact .stopped (hn.trans next) performs
  | failed next performs snapshot => exact .failed (hn.trans next) performs snapshot

theorem step_untraced (s : Session σ) : s.untraced.step = (s.step.1, s.step.2.untraced) :=
  (stepped s).untraced.step_eq

theorem after_untraced (n : Nat) (s : Session σ) : s.untraced.after n = (s.after n).untraced :=
  (after_map fun _ _ => step_untraced _).1

omit [Channel σ] in
theorem announce_untraced (s : Session σ) : s.untraced.announce = s.announce.untraced := by
  have hs : s.untraced.machine.state = s.machine.state := rfl
  unfold announce
  cases h : s.machine.state with
  | ready =>
    rw [hs, h]
    rfl
  | running | halted | faulted => rw [hs, h]

variable {r : Except Fault Summary}

theorem returns_untraced_iff : s.untraced.Returns r t ↔ ∃ u, s.Returns r u ∧ u.untraced = t := by
  simp only [returns_iff, announce_untraced, after_untraced]
  constructor
  · rintro ⟨n, rfl, hr⟩
    exact ⟨_, ⟨n, rfl, hr⟩, rfl⟩
  · rintro ⟨_, ⟨n, rfl, hr⟩, rfl⟩
    exact ⟨n, rfl, hr⟩

/-- Equal but for the trace and the journal. -/
def Agree (s t : Session σ) : Prop := Same s.untraced t.untraced

omit [Channel σ] in
theorem Agree.symm (h : Agree s t) : Agree t s := Same.symm h

theorem Agree.step (h : Agree s t) : t.step.1 = s.step.1 ∧ Agree s.step.2 t.step.2 := by
  have hs := Same.step h
  rwa [step_untraced, step_untraced] at hs

theorem Agree.returns (h : Agree s t) (hr : s.Returns r u) : ∃ v, t.Returns r v ∧ Agree u v := by
  have hu := returns_untraced_iff.mpr ⟨u, hr, rfl⟩
  obtain ⟨w, hw, same⟩ := Same.returns h hu
  obtain ⟨v, hv, rfl⟩ := returns_untraced_iff.mp hw
  exact ⟨v, hv, same⟩

theorem Stepped.isSome_trace {r : Except Fault Machine.State} (h : Stepped s r t) :
    t.machine.trace.isSome = s.machine.trace.isSome := by
  cases h with
  | halted | faulted => rfl
  | unfetched _ fetch =>
    rcases Machine.fetch_eq_error_iff.mp fetch with ⟨-, rfl⟩ | ⟨-, -, rfl⟩ | ⟨-, -, rfl⟩ <;> rfl
  | proceeded | stopped | failed => exact Option.isSome_map

end Session

namespace Machine

/-- The same calls lead from two machines to these, the first machine made with `a` and the second with `b`
for whether it is traced. A call gets the same channel on both sides, and journals as they come. -/
inductive Paired (program : Program) (settings : Settings) (a b : Bool) : Machine → Machine → Prop
  | built {m m'} (h : Built program { settings with trace := a } m)
      (h' : Built program { settings with trace := b } m') : Paired program settings a b m m'
  | step {σ : Type} [Channel σ] {s t : Session σ} (h : Paired program settings a b s.machine t.machine)
      (channel : t.channel = s.channel) : Paired program settings a b s.step.2.machine t.step.2.machine
  | run {σ : Type} [Channel σ] {s t u v : Session σ} {r r'} (h : Paired program settings a b s.machine t.machine)
      (channel : t.channel = s.channel) (hs : s.Returns r u) (ht : t.Returns r' v) :
    Paired program settings a b u.machine v.machine
  | reset {m m'} (h : Paired program settings a b m m') : Paired program settings a b m.reset m'.reset

variable {P : Guard} {program : Program} {settings : Settings} {log : List Execution} {a b : Bool}
  {m m' : Machine}

theorem Reached.isSome_trace (h : Reached P program settings log m) : m.trace.isSome = settings.trace := by
  have fresh : (fresh program settings).trace.isSome = settings.trace := by
    cases ht : settings.trace <;> simp [trace_fresh, ht]
  induction h using Reached.induct with
  | built m h => exact h.eq_fresh ▸ fresh
  | step σ s log _ _ ih => exact (Session.stepped s).isSome_trace.trans ih
  | reset log m h => exact h.sized.reset ▸ fresh

theorem Paired.reached (h : Paired program settings a b m m') :
    (∃ log, Reached (fun _ _ _ => True) program { settings with trace := a } log m) ∧
      ∃ log, Reached (fun _ _ _ => True) program { settings with trace := b } log m' := by
  induction h with
  | built h h' => exact ⟨⟨_, .built h⟩, ⟨_, .built h'⟩⟩
  | step _ _ ih =>
    obtain ⟨⟨_, hs⟩, ⟨_, ht⟩⟩ := ih
    exact ⟨⟨_, .step hs trivial⟩, ⟨_, .step ht trivial⟩⟩
  | run _ _ hu hv ih =>
    obtain ⟨⟨_, hs⟩, ⟨_, ht⟩⟩ := ih
    obtain ⟨_, hu⟩ := hu
    obtain ⟨_, hv⟩ := hv
    exact ⟨⟨_, .run hs hu fun _ _ => trivial⟩, ⟨_, .run ht hv fun _ _ => trivial⟩⟩
  | reset _ ih =>
    obtain ⟨⟨_, hs⟩, ⟨_, ht⟩⟩ := ih
    exact ⟨⟨_, .reset hs⟩, ⟨_, .reset ht⟩⟩

theorem Paired.untraced_eq (h : Paired program settings a b m m') : m'.untraced = m.untraced := by
  induction h with
  | built h h' =>
    rw [h.eq_fresh, h'.eq_fresh]
    rfl
  | @step σ _ s t _ channel ih =>
    have agree : Session.Agree s t := ⟨ih, channel⟩
    exact agree.step.2.machine
  | @run σ _ s t u v r r' _ channel hs ht ih =>
    have agree : Session.Agree s t := ⟨ih, channel⟩
    obtain ⟨w, hw, same⟩ := agree.returns hs
    obtain ⟨-, rfl⟩ := ht.unique hw
    exact same.machine
  | reset _ ih => rw [untraced_reset, untraced_reset, ih]

/-- `m'` is in the state of `m`, and answers every call as `m` does. -/
structure Undisturbed (m m' : Machine) : Prop where
  registers : m'.registers = m.registers
  stack : m'.stack = m.stack
  state : m'.state = m.state
  haltReason : m'.haltReason = m.haltReason
  fault : m'.fault = m.fault
  steps : m'.steps = m.steps
  profile : m'.profile = m.profile
  step : ∀ (σ : Type) [Channel σ] (s t : Session σ), s.machine = m → t.machine = m' → t.channel = s.channel →
    t.step.1 = s.step.1 ∧ t.step.2.channel = s.step.2.channel
  run : ∀ (σ : Type) [Channel σ] (s t : Session σ), s.machine = m → t.machine = m' → t.channel = s.channel →
    ∀ r channel, (∃ u, s.Returns r u ∧ u.channel = channel) ↔ ∃ v, t.Returns r v ∧ v.channel = channel

theorem undisturbed_of_untraced_eq (h : m'.untraced = m.untraced) : m.Undisturbed m' := by
  have same {α : Type} (f : Machine → α) : f m'.untraced = f m.untraced := congrArg f h
  constructor
  case registers => exact same Machine.registers
  case stack => exact same Machine.stack
  case state => exact same Machine.state
  case haltReason => exact same Machine.haltReason
  case fault => exact same Machine.fault
  case steps => exact same Machine.steps
  case profile => exact same Machine.profile
  case step =>
    rintro σ _ s t rfl rfl channel
    have agree : Session.Agree s t := ⟨h, channel⟩
    exact ⟨agree.step.1, agree.step.2.channel⟩
  case run =>
    rintro σ _ s t rfl rfl channel r c
    have agree : Session.Agree s t := ⟨h, channel⟩
    constructor
    · rintro ⟨u, hu, rfl⟩
      obtain ⟨v, hv, same⟩ := agree.returns hu
      exact ⟨v, hv, same.channel⟩
    · rintro ⟨v, hv, rfl⟩
      obtain ⟨u, hu, same⟩ := agree.symm.returns hv
      exact ⟨u, hu, same.channel⟩

theorem Paired.undisturbed (h : Paired program settings a b m m') :
    m.Undisturbed m' ∧ m.trace.isSome = a ∧ m'.trace.isSome = b := by
  obtain ⟨⟨_, hm⟩, ⟨_, hm'⟩⟩ := h.reached
  exact ⟨undisturbed_of_untraced_eq h.untraced_eq, hm.isSome_trace, hm'.isSome_trace⟩

theorem undisturbed_dividing :
    let program := Program.ofInstructions [.lit 7, .lit 0, .opr (.binary .quotient)]
    let s : Session QueueChannel := ⟨fresh program { trace := true }, .ofInput [], ⟨.debug, #[]⟩⟩
    let t : Session QueueChannel := ⟨fresh program {}, .ofInput [], ⟨.error, #[]⟩⟩
    ∃ u v fault, s.step.2.Returns (.error fault) u ∧ t.step.2.Returns (.error fault) v ∧
      Paired program {} true false u.machine v.machine ∧ u.machine.Undisturbed v.machine ∧
        u.machine.trace.isSome = true ∧ v.machine.trace.isSome = false := by
  intro program s t
  have built : Paired program {} true false s.machine t.machine := .built (.ofSettings rfl) (.ofSettings rfl)
  have stepped := built.step (s := s) (t := t) rfl
  have hs : s.step.2.Returns _ _ := ⟨2, rfl⟩
  have ht : t.step.2.Returns _ _ := ⟨2, rfl⟩
  have paired := stepped.run rfl hs ht
  exact ⟨_, _, _, hs, ht, paired, Paired.undisturbed paired⟩

end Machine
end PCode
