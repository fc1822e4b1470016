import PCode.Proofs.Session.Bounds
/-!
The life of a machine. The state and the two fields that say how a machine ended agree, a ready machine is
a new one, a halted machine tells why it has halted, a run that has ended answers every call in the same
way, and a reset makes the machine new.
-/

namespace PCode

def Execution.Ends : HaltReason → Execution → Prop
  | .halt, x => x.instruction = .sio .halt
  | .returnFromMain, x => x.instruction = .opr .ret ∧ x.core.base = Frame.globalBase

namespace Machine

variable {program : Program} {settings : Settings} {m : Machine} {reason : HaltReason} {fault : Fault}

/-- The fields that say how a machine ended are set in the states that they belong to, and only there. -/
structure Coherent (m : Machine) : Prop where
  faulted_iff : m.state = .faulted ↔ m.fault.isSome
  halted_iff : m.state = .halted ↔ m.haltReason.isSome

theorem Coherent.halted_of_haltReason (h : m.Coherent) (given : m.haltReason = some reason) : m.state = .halted :=
  h.halted_iff.mpr (Option.isSome_of_eq_some given)

theorem coherent_of_going (hs : m.state ≠ .faulted ∧ m.state ≠ .halted) (hf : m.fault = none)
    (hr : m.haltReason = none) : m.Coherent := by
  constructor
  · simp [hs.1, hf]
  · simp [hs.2, hr]

theorem coherent_halt (hf : m.fault = none) (reason : HaltReason) : (m.halt reason).Coherent := by
  constructor
  · simp [halt, hf]
  · simp [halt]

theorem coherent_fail (hr : m.haltReason = none) (fault : Fault) : (m.fail fault).Coherent := by
  constructor
  · simp [fail]
  · simp [fail, hr]

theorem coherent_fresh (program : Program) (settings : Settings) : (fresh program settings).Coherent :=
  coherent_of_going ⟨nofun, nofun⟩ rfl rfl

/-- A step goes on with a machine that neither field says to have ended. -/
theorem Coherent.live_iff (h : m.Coherent) : m.Live ↔ m.fault = none ∧ m.haltReason = none := by
  have faulted : m.fault = none ↔ m.state ≠ .faulted := by
    rw [ne_eq, h.faulted_iff, Option.not_isSome_iff_eq_none]
  have halted : m.haltReason = none ↔ m.state ≠ .halted := by
    rw [ne_eq, h.halted_iff, Option.not_isSome_iff_eq_none]
  constructor
  · rintro ⟨going, unheld⟩
    have sound : m.state ≠ .faulted := fun hs => absurd (h.faulted_iff.mp hs) (by simp [unheld hs])
    exact ⟨faulted.mpr sound, halted.mpr going⟩
  · rintro ⟨hf, hr⟩
    exact ⟨halted.mp hr, fun _ => hf⟩

/-- No step goes on with a machine that has faulted. -/
theorem Coherent.live_iff_state (h : m.Coherent) : m.Live ↔ m.state = .ready ∨ m.state = .running := by
  rw [h.live_iff, ← Option.not_isSome_iff_eq_none, ← Option.not_isSome_iff_eq_none, ← h.faulted_iff, ← h.halted_iff]
  cases m.state <;> simp

end Machine

namespace Session

variable {σ : Type} [Channel σ] {s t : Session σ} {program : Program} {channel channel' : σ}
  {i : Instruction} {c d : Core} {reason : HaltReason} {fault : Fault} {r : Except Fault Machine.State}

theorem Performs.ends (h : Performs program i c channel (some reason) d channel') {pc : Nat} :
    Execution.Ends reason ⟨{ c with pc }, i⟩ := by
  cases h with
  | finish outermost => exact ⟨rfl, outermost⟩
  | halt => rfl

theorem Stepped.state_ne_ready (h : Stepped s r t) : t.machine.state ≠ .ready := by
  cases h with
  | halted halted => rw [halted]; nofun
  | faulted faulted => rw [faulted]; nofun
  | unfetched => nofun
  | proceeded => nofun
  | stopped => nofun
  | failed => nofun

omit [Channel σ] in
theorem announce_of_ne_ready (h : s.machine.state ≠ .ready) : s.announce = s := by
  unfold announce
  split
  next hr => exact absurd hr h
  next => rfl

/-- A reason to halt is there before a step, or the step gives it. -/
theorem Stepped.ends (h : Stepped s r t) (hr : t.machine.haltReason = some reason) :
    s.machine.haltReason = some reason ∨ ∃ x, s.machine.execution? = some x ∧ x.Ends reason := by
  cases h with
  | unfetched _ fetch =>
    rcases Machine.fetch_eq_error_iff.mp fetch with ⟨-, rfl⟩ | ⟨-, -, rfl⟩ | ⟨-, -, rfl⟩ <;> exact .inl hr
  | stopped next performs =>
    obtain rfl := Option.some.inj hr
    exact .inr ⟨_, Machine.execution?_of_next? next, performs.ends⟩
  | _ => exact .inl hr

/-- A step that goes on finds both fields empty and sets the one that it ends with. -/
theorem Stepped.coherent (h : Stepped s r t) (hs : s.machine.Coherent) : t.machine.Coherent := by
  cases h with
  | halted | faulted => exact hs
  | unfetched live fetch =>
    obtain ⟨-, hr⟩ := hs.live_iff.mp live
    apply Machine.coherent_fail
    rcases Machine.fetch_eq_error_iff.mp fetch with ⟨-, rfl⟩ | ⟨-, -, rfl⟩ | ⟨-, -, rfl⟩ <;> exact hr
  | proceeded next =>
    obtain ⟨hf, hr⟩ := hs.live_iff.mp (Machine.next?_eq_some_iff.mp next).1
    exact Machine.coherent_of_going ⟨nofun, nofun⟩ hf hr
  | @stopped i reason core _ next =>
    obtain ⟨hf, -⟩ := hs.live_iff.mp (Machine.next?_eq_some_iff.mp next).1
    exact Machine.coherent_halt (m := s.machine.executed i core none) hf reason
  | @failed i e core _ fault next =>
    obtain ⟨-, hr⟩ := hs.live_iff.mp (Machine.next?_eq_some_iff.mp next).1
    exact Machine.coherent_fail (m := s.machine.executed i core (some e)) hr fault

theorem run_of_halted (h : s.machine.state = .halted) (fuel : Nat) :
    s.run (fuel + 1) = some (.ok s.machine.summary, s) := by
  rw [run, announce_of_ne_ready (by rw [h]; nofun)]
  simp only [finish, step_of_halted h]

theorem run_of_faulted (h : s.machine.state = .faulted) (held : s.machine.fault = some fault) (fuel : Nat) :
    s.run (fuel + 1) = some (.error fault, s) := by
  rw [run, announce_of_ne_ready (by rw [h]; nofun)]
  simp only [finish, step_of_faulted h held]

end Session

namespace Machine

variable {program : Program} {settings : Settings} {log : List Execution} {m m' : Machine}
  {reason : HaltReason} {fault : Fault} {P : Guard}

/-- Some sequence of steps and runs leads from `m` to `m'`. -/
inductive Called (m : Machine) : Machine → Prop
  | none : Called m m
  | step {σ : Type} [Channel σ] {s : Session σ} (h : Called m s.machine) : Called m s.step.2.machine
  | run {σ : Type} [Channel σ] {s t : Session σ} {fuel r} (h : Called m s.machine)
      (hr : s.run fuel = some (r, t)) : Called m t.machine

/-- A step and a run of any session of `m` return these, and leave the session as it is. -/
def Answers (m : Machine) (state : Except Fault State) (summary : Except Fault Summary) : Prop :=
  ∀ (σ : Type) [Channel σ] (s : Session σ), s.machine = m →
    s.step = (state, s) ∧ ∀ fuel, s.run (fuel + 1) = some (summary, s)

theorem answers_of_halted (h : m.state = .halted) : m.Answers (.ok .halted) (.ok m.summary) := by
  rintro σ _ s rfl
  exact ⟨Session.step_of_halted h, Session.run_of_halted h⟩

theorem answers_of_faulted (h : m.state = .faulted) (held : m.fault = some fault) :
    m.Answers (.error fault) (.error fault) := by
  rintro σ _ s rfl
  exact ⟨Session.step_of_faulted h held, Session.run_of_faulted h held⟩

theorem Answers.called {state : Except Fault State} {summary : Except Fault Summary}
    (h : m.Answers state summary) (hc : Called m m') : m' = m := by
  induction hc with
  | none => rfl
  | @step σ _ s _ ih =>
    rw [(h σ s ih).1]
    exact ih
  | @run σ _ s t fuel r _ hr ih =>
    cases fuel with
    | zero => cases hr
    | succ fuel =>
      rw [(h σ s ih).2 fuel] at hr
      obtain ⟨-, rfl⟩ := hr
      exact ih

theorem Reached.coherent (h : Reached P program settings log m) : m.Coherent := by
  induction h using Reached.induct with
  | built m h => exact h.eq_fresh ▸ coherent_fresh program settings
  | step σ s log _ _ ih => exact (Session.stepped s).coherent ih
  | reset log m => exact coherent_fresh m.program m.settings

theorem Reached.eq_fresh_of_ready (h : Reached P program settings log m) (hs : m.state = .ready) :
    m = fresh program settings := by
  induction h using Reached.induct with
  | built m h => exact h.eq_fresh
  | step σ s log _ _ _ => exact absurd hs (Session.stepped s).state_ne_ready
  | reset log m h => exact h.sized.reset

theorem Reached.ends_of_halted (h : Reached P program settings log m) (hr : m.haltReason = some reason) :
    ∃ x, log.getLast? = some x ∧ x.Ends reason := by
  induction h using Reached.induct with
  | built m h =>
    rw [h.eq_fresh] at hr
    cases hr
  | step σ s log h _ ih =>
    rcases (Session.stepped s).ends hr with before | ⟨x, hx, ends⟩
    · obtain ⟨x, hl, ends⟩ := ih before
      have halted := h.coherent.halted_of_haltReason before
      rw [execution?_of_not_live (not_live_of_halted halted), Option.toList_none, List.append_nil]
      exact ⟨x, hl, ends⟩
    · rw [hx, Option.toList_some, List.getLast?_concat]
      exact ⟨x, rfl, ends⟩
  | reset log m => cases hr

/-- What the fields of a machine that a sequence of calls has led to say about it, and about the executions
since it was reset. A halted machine has a reason and a faulted one a fault, so no summary is without its reason
and no step goes on with a machine that has faulted. -/
structure Lifecycle (program : Program) (settings : Settings) (log : List Execution) (m : Machine) :
    Prop where
  faulted_iff : m.state = .faulted ↔ m.fault.isSome
  halted_iff : m.state = .halted ↔ m.haltReason.isSome
  exclusive : m.fault = none ∨ m.haltReason = none
  ready : m.state = .ready → m = fresh program settings ∧ m.core.pc = 0 ∧
    m.core.base = Frame.globalBase ∧ m.stack = #[0, 0, 0] ∧ m.steps = 0
  ended : ∀ reason, m.haltReason = some reason → ∃ x, log.getLast? = some x ∧ x.Ends reason
  halted : m.state = .halted → ∃ reason, m.haltReason = some reason ∧ ∀ m', Called m m' →
    m' = m ∧ m'.Answers (.ok .halted) (.ok ⟨reason, m.registers, m.stack, m.steps⟩)
  faulted : m.state = .faulted → ∃ fault, m.fault = some fault ∧ ∀ m', Called m m' →
    m' = m ∧ m'.Answers (.error fault) (.error fault)
  reset : ∀ m₀, Built program settings m₀ → m.reset = m₀

theorem Reached.lifecycle (h : Reached (fun _ _ _ => True) program settings log m) :
    Lifecycle program settings log m where
  faulted_iff := h.coherent.faulted_iff
  halted_iff := h.coherent.halted_iff
  exclusive := by
    by_contra both
    obtain ⟨hf, hr⟩ := not_or.mp both
    have faulted := h.coherent.faulted_iff.mpr (Option.isSome_iff_ne_none.mpr hf)
    have halted := h.coherent.halted_iff.mpr (Option.isSome_iff_ne_none.mpr hr)
    cases faulted.symm.trans halted
  ready hs := by
    have hm := h.eq_fresh_of_ready hs
    refine ⟨hm, ?_⟩
    subst hm
    exact ⟨rfl, rfl, rfl, rfl⟩
  ended reason hr := h.ends_of_halted hr
  halted hs := by
    obtain ⟨reason, given⟩ := Option.isSome_iff_exists.mp (h.coherent.halted_iff.mp hs)
    refine ⟨reason, given, fun m' hc => ?_⟩
    have ha := answers_of_halted hs
    rw [summary, given, Option.getD_some] at ha
    obtain rfl := ha.called hc
    exact ⟨rfl, ha⟩
  faulted hs := by
    obtain ⟨fault, held⟩ := Option.isSome_iff_exists.mp (h.coherent.faulted_iff.mp hs)
    refine ⟨fault, held, fun m' hc => ?_⟩
    have ha := answers_of_faulted hs held
    obtain rfl := ha.called hc
    exact ⟨rfl, ha⟩
  reset m₀ hb := h.sized.reset.trans hb.eq_fresh.symm

theorem lifecycle_halting :
    let program := Program.ofInstructions [.sio .halt]
    let s := Session.scripted (.ofProgram program) []
    s.step.2.machine.state = .halted ∧
      Lifecycle program {} [⟨s.machine.core, .sio .halt⟩] s.step.2.machine := by
  intro program s
  have hs : s.machine.execution? = some ⟨s.machine.core, .sio .halt⟩ := rfl
  have h : Reached (fun _ _ _ => True) program {} [] s.machine := .built .ofProgram
  have h' := Reached.step h trivial
  rw [hs] at h'
  exact ⟨rfl, Reached.lifecycle h'⟩

end Machine
end PCode
