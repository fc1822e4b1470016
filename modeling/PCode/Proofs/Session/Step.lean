import PCode.Proofs.Execution.Kinds
import PCode.Proofs.Execution.Rules
/-!
What a step does: nothing to a machine that has halted, or has faulted and holds the fault, and to a live
one exactly one of four things.
-/

namespace PCode

def Core.next (c : Core) : Core := { c with pc := c.pc + 1 }

namespace Machine

variable {m m' : Machine} {i : Instruction} {e : Error}

/-- A step goes on with it. A faulted machine holds its fault as long as its fields agree. -/
def Live (m : Machine) : Prop := m.state ≠ .halted ∧ (m.state = .faulted → m.fault = none)

theorem live_of_ready (h : m.state = .ready) : m.Live := by
  constructor <;> rw [h] <;> nofun

theorem live_of_running (h : m.state = .running) : m.Live := by
  constructor <;> rw [h] <;> nofun

theorem exists_limit_of_checkBudget (h : m.checkBudget = .error e) : ∃ limit, e = .stepLimitExceeded limit := by
  unfold checkBudget at h
  split at h
  · cases h
  · split at h <;> cases h
    exact ⟨_, rfl⟩

theorem fetch_of_checkBudget_eq_error (h : m.checkBudget = .error e) : m.fetch = (.error e, m) := by
  simp only [fetch, h]

theorem fetch_of_program_eq_error (hb : m.checkBudget = .ok ()) (h : m.program.fetch m.core.pc = .error e) :
    m.fetch = (.error e, m) := by
  simp only [fetch, hb, h]

theorem fetch_of_program_eq_ok {t : Triple} (hb : m.checkBudget = .ok ())
    (h : m.program.fetch m.core.pc = .ok t) : m.fetch = (t.decode, { m with core := m.core.next }) := by
  simp only [fetch, hb, h]
  rfl

theorem fetch_eq_ok_iff :
    m.fetch = (.ok i, m') ↔ m.checkBudget = .ok () ∧
      (∃ t, m.program.get? m.core.pc = some t ∧ t.decode = .ok i) ∧ m' = { m with core := m.core.next } := by
  cases hb : m.checkBudget with
  | error e => simp [fetch_of_checkBudget_eq_error hb]
  | ok u =>
    cases hf : m.program.fetch m.core.pc with
    | error e =>
      have hn := Program.get?_eq_none_iff.mpr (Program.fetch_eq_error_iff.mp hf).1
      simp [fetch_of_program_eq_error hb hf, hn]
    | ok t =>
      simp [fetch_of_program_eq_ok hb hf, Program.fetch_eq_ok_iff.mp hf, eq_comm]

theorem fetch_eq_error_iff :
    m.fetch = (.error e, m') ↔ (m.checkBudget = .error e ∧ m' = m) ∨
      (m.checkBudget = .ok () ∧ m.program.fetch m.core.pc = .error e ∧ m' = m) ∨
      (m.checkBudget = .ok () ∧ (∃ t, m.program.get? m.core.pc = some t ∧ t.decode = .error e) ∧
        m' = { m with core := m.core.next }) := by
  cases hb : m.checkBudget with
  | error e' => simp [fetch_of_checkBudget_eq_error hb, eq_comm]
  | ok u =>
    cases hf : m.program.fetch m.core.pc with
    | error e' =>
      have hn := Program.get?_eq_none_iff.mpr (Program.fetch_eq_error_iff.mp hf).1
      simp [fetch_of_program_eq_error hb hf, hn, eq_comm]
    | ok t =>
      simp [fetch_of_program_eq_ok hb hf, Program.fetch_eq_ok_iff.mp hf, eq_comm]

/-- Fetching goes along with any change that it does not look at. -/
theorem fetch_map {f : Machine → Machine} (budget : (f m).checkBudget = m.checkBudget)
    (program : (f m).program = m.program) (pc : (f m).core.pc = m.core.pc)
    (moved : f { m with core := m.core.next } = { f m with core := (f m).core.next }) :
    (f m).fetch = (m.fetch.1, f m.fetch.2) := by
  cases hb : m.checkBudget with
  | error e => rw [fetch_of_checkBudget_eq_error hb, fetch_of_checkBudget_eq_error (budget.trans hb)]
  | ok u =>
    cases hf : m.program.fetch m.core.pc with
    | error e =>
      have hf' : (f m).program.fetch (f m).core.pc = .error e := by rw [program, pc, hf]
      rw [fetch_of_program_eq_error hb hf, fetch_of_program_eq_error (budget.trans hb) hf']
    | ok t =>
      have hf' : (f m).program.fetch (f m).core.pc = .ok t := by rw [program, pc, hf]
      rw [fetch_of_program_eq_ok hb hf, fetch_of_program_eq_ok (budget.trans hb) hf', moved]

theorem fetch_start (m : Machine) : m.start.fetch = (m.fetch.1, m.fetch.2.start) :=
  fetch_map (f := start) rfl rfl rfl rfl

/-- The instruction that the next step executes. -/
def next? (m : Machine) : Option Instruction :=
  match m.state, m.fault with
  | .halted, _ => none
  | .faulted, some _ => none
  | _, _ => m.fetch.1.toOption

theorem next?_eq_some_iff :
    m.next? = some i ↔ m.Live ∧ m.fetch = (.ok i, { m with core := m.core.next }) := by
  have hf : m.fetch.1.toOption = some i ↔ m.fetch = (.ok i, { m with core := m.core.next }) := by
    rcases hm : m.fetch with ⟨_ | j, m'⟩
    · simp [Except.toOption]
    · obtain ⟨-, -, rfl⟩ := fetch_eq_ok_iff.mp hm
      simp [Except.toOption]
  unfold next? Live
  cases hs : m.state <;> cases hf : m.fault <;> simp_all

theorem next?_eq_none_of_not_live (h : ¬m.Live) : m.next? = none := by
  cases hn : m.next? with
  | none => rfl
  | some i => exact absurd (next?_eq_some_iff.mp hn).1 h

theorem next?_eq_none_of_fetch (h : m.fetch = (.error e, m')) : m.next? = none := by
  cases hn : m.next? with
  | none => rfl
  | some i =>
    rw [(next?_eq_some_iff.mp hn).2] at h
    cases h

theorem not_live_of_halted (h : m.state = .halted) : ¬m.Live := by
  simp [Live, h]

theorem not_live_of_faulted {fault : Fault} (h : m.state = .faulted) (held : m.fault = some fault) : ¬m.Live := by
  simp [Live, h, held]

theorem error_of_fetch (h : m.fetch = (.error e, m')) :
    (∃ limit, e = .stepLimitExceeded limit) ∨ (∃ pc length, e = .invalidProgramCounter pc length) ∨
      e.OfDecoding := by
  rcases fetch_eq_error_iff.mp h with ⟨hb, -⟩ | ⟨-, hf, -⟩ | ⟨-, ⟨t, -, hd⟩, -⟩
  · exact .inl (exists_limit_of_checkBudget hb)
  · exact .inr (.inl ⟨_, _, (Program.fetch_eq_error_iff.mp hf).2⟩)
  · exact .inr (.inr (Triple.decode_ofDecoding hd))

theorem decode_of_next? (h : m.next? = some i) :
    ∃ t, m.program.get? m.core.pc = some t ∧ t.decode = .ok i :=
  (fetch_eq_ok_iff.mp (next?_eq_some_iff.mp h).2).2.1

theorem pc_lt_of_next? (h : m.next? = some i) : m.core.pc < m.program.length := by
  obtain ⟨t, ht, -⟩ := decode_of_next? h
  exact Program.lt_length_of_get? ht

/-- The machine in the midst of a step, the instruction executed and recorded. -/
def executed (m : Machine) (i : Instruction) (core : Core) (error : Option Error) : Machine :=
  { m with
    core
    state := .running
    steps := m.steps + 1
    profile := m.profile.record i.opcode
    trace := m.trace.map fun t => t.record m.core.pc i core.registers core.stack.cells error }

end Machine

namespace Session

variable {σ : Type} [Channel σ]

inductive Stepped : Session σ → Except Fault Machine.State → Session σ → Prop
  | halted {s} (halted : s.machine.state = .halted) : Stepped s (.ok .halted) s
  | faulted {s fault} (faulted : s.machine.state = .faulted) (held : s.machine.fault = some fault) :
    Stepped s (.error fault) s
  | unfetched {s e m fault} (live : s.machine.Live) (fetch : s.machine.fetch = (.error e, m))
      (snapshot : fault = ⟨e, s.machine.core.pc, m.registers⟩) :
    Stepped s (.error fault) ⟨m.fail fault, s.channel, s.journal.note (.faulted fault)⟩
  | proceeded {s i core channel} (next : s.machine.next? = some i)
      (performs : Performs s.machine.program i s.machine.core.next s.channel none core channel) :
    Stepped s (.ok .running)
      ⟨s.machine.executed i core none, channel, s.journal.note (.executing s.machine.core.pc i)⟩
  | stopped {s i reason core channel} (next : s.machine.next? = some i)
      (performs : Performs s.machine.program i s.machine.core.next s.channel (some reason) core channel) :
    Stepped s (.ok .halted)
      ⟨(s.machine.executed i core none).halt reason, channel,
        (s.journal.note (.executing s.machine.core.pc i)).note
          (.halted reason (s.machine.steps + 1) core.registers)⟩
  | failed {s i e core channel fault} (next : s.machine.next? = some i)
      (performs : perform s.machine.program i s.machine.core.next s.channel = (.error e core, channel))
      (snapshot : fault = ⟨e, s.machine.core.pc, core.registers⟩) :
    Stepped s (.error fault)
      ⟨(s.machine.executed i core (some e)).fail fault, channel,
        (s.journal.note (.executing s.machine.core.pc i)).note (.faulted fault)⟩

variable {s t : Session σ} {r : Except Fault Machine.State}

theorem step_of_live (h : s.machine.Live) : s.step = s.advance := by
  unfold step
  cases hs : s.machine.state with
  | ready | running => rfl
  | halted => exact absurd hs h.1
  | faulted => simp only [h.2 hs]

theorem cycle_start_of_next {i : Instruction} (h : s.machine.next? = some i) :
    cycle { s with machine := s.machine.start } =
      match perform s.machine.program i s.machine.core.next s.channel with
      | (.ok halt core, channel) =>
        (.ok halt, ⟨s.machine.executed i core none, channel, s.journal.note (.executing s.machine.core.pc i)⟩)
      | (.error e core, channel) =>
        (.error ⟨e, s.machine.core.pc, core.registers⟩,
          ⟨s.machine.executed i core (some e), channel, s.journal.note (.executing s.machine.core.pc i)⟩) := by
  simp only [cycle, Machine.fetch_start, (Machine.next?_eq_some_iff.mp h).2, carryOut]
  rfl

theorem cycle_start_of_fetch {e : Error} {m : Machine} (h : s.machine.fetch = (.error e, m)) :
    cycle { s with machine := s.machine.start } =
      (.error ⟨e, s.machine.core.pc, m.registers⟩, ⟨m.start, s.channel, s.journal⟩) := by
  simp only [cycle, Machine.fetch_start, h]
  rfl

theorem stepped_of_live (live : s.machine.Live) : Stepped s s.advance.1 s.advance.2 := by
  rcases hf : s.machine.fetch with ⟨e | i, m⟩
  · simp only [advance, cycle_start_of_fetch hf, fail]
    exact .unfetched (m := m) live hf rfl
  · obtain ⟨-, -, rfl⟩ := Machine.fetch_eq_ok_iff.mp hf
    have hn := Machine.next?_eq_some_iff.mpr ⟨live, hf⟩
    have hc := cycle_start_of_next hn
    rcases hp : perform s.machine.program i s.machine.core.next s.channel with
      ⟨⟨_ | reason, core⟩ | ⟨e, core⟩, channel⟩
    · rw [hp] at hc
      simp only [advance, hc]
      exact .proceeded hn (performs_of_perform hp)
    · rw [hp] at hc
      simp only [advance, hc, halt]
      exact .stopped hn (performs_of_perform hp)
    · rw [hp] at hc
      simp only [advance, hc, fail]
      exact .failed hn hp rfl

theorem step_of_halted (h : s.machine.state = .halted) : s.step = (.ok .halted, s) := by
  simp only [step, h]

theorem step_of_faulted {fault : Fault} (h : s.machine.state = .faulted) (held : s.machine.fault = some fault) :
    s.step = (.error fault, s) := by
  simp only [step, h, held]

theorem stepped (s : Session σ) : Stepped s s.step.1 s.step.2 := by
  have advances (live : s.machine.Live) : Stepped s s.step.1 s.step.2 := by
    rw [step_of_live live]
    exact stepped_of_live live
  cases h : s.machine.state with
  | ready => exact advances (Machine.live_of_ready h)
  | running => exact advances (Machine.live_of_running h)
  | halted =>
    rw [step_of_halted h]
    exact .halted h
  | faulted =>
    cases held : s.machine.fault with
    | none => exact advances ⟨by simp [h], fun _ => held⟩
    | some fault =>
      rw [step_of_faulted h held]
      exact .faulted h held

theorem stepped_of_step (h : s.step = (r, t)) : Stepped s r t := by
  have hs := stepped s
  rwa [h] at hs

/-- The ways of a step exclude each other. -/
theorem Stepped.step_eq (h : Stepped s r t) : s.step = (r, t) := by
  have advances {i : Instruction} (next : s.machine.next? = some i) : s.step = s.advance :=
    step_of_live (Machine.next?_eq_some_iff.mp next).1
  cases h with
  | halted halted => exact step_of_halted halted
  | faulted faulted held => exact step_of_faulted faulted held
  | unfetched live fetch snapshot =>
    subst snapshot
    rw [step_of_live live, advance, cycle_start_of_fetch fetch]
    rfl
  | proceeded next performs =>
    rw [advances next, advance, cycle_start_of_next next, performs.perform]
  | stopped next performs =>
    rw [advances next, advance, cycle_start_of_next next, performs.perform]
    rfl
  | failed next performs snapshot =>
    subst snapshot
    rw [advances next, advance, cycle_start_of_next next, performs]
    rfl

theorem state_of_step_eq_ok {state : Machine.State} (h : s.step = (.ok state, t)) :
    t.machine.state = state := by
  cases stepped_of_step h with
  | halted halted => exact halted
  | proceeded => rfl
  | stopped => rfl

theorem faulted_of_step_eq_error {fault : Fault} (h : s.step = (.error fault, t)) :
    t.machine.state = .faulted ∧ t.machine.fault = some fault := by
  cases stepped_of_step h with
  | faulted faulted held => exact ⟨faulted, held⟩
  | unfetched | failed => exact ⟨rfl, rfl⟩

theorem Stepped.program (h : Stepped s r t) : t.machine.program = s.machine.program := by
  cases h with
  | unfetched _ fetch =>
    rcases Machine.fetch_eq_error_iff.mp fetch with ⟨-, rfl⟩ | ⟨-, -, rfl⟩ | ⟨-, -, rfl⟩ <;> rfl
  | _ => rfl

theorem Stepped.settings (h : Stepped s r t) : t.machine.settings = s.machine.settings := by
  cases h with
  | unfetched _ fetch =>
    rcases Machine.fetch_eq_error_iff.mp fetch with ⟨-, rfl⟩ | ⟨-, -, rfl⟩ | ⟨-, -, rfl⟩ <;> rfl
  | _ => rfl

theorem Stepped.eq_ok_of_performs {i : Instruction} {channel : σ} {halt : Option HaltReason} {d : Core}
    (h : Stepped s r t) (hi : s.machine.next? = some i)
    (hp : Performs s.machine.program i s.machine.core.next s.channel halt d channel) :
    ∃ state, r = .ok state := by
  cases h with
  | halted => exact ⟨_, rfl⟩
  | faulted faulted held =>
    rw [Machine.next?_eq_none_of_not_live (Machine.not_live_of_faulted faulted held)] at hi
    cases hi
  | unfetched _ fetch =>
    rw [Machine.next?_eq_none_of_fetch fetch] at hi
    cases hi
  | proceeded => exact ⟨_, rfl⟩
  | stopped => exact ⟨_, rfl⟩
  | failed next performs =>
    obtain rfl := Option.some.inj (hi.symm.trans next)
    rw [hp.perform] at performs
    cases performs

/-- A step that succeeds performs the instruction that it fetches. -/
theorem Stepped.performs {i : Instruction} {state : Machine.State} (h : Stepped s (.ok state) t)
    (hi : s.machine.next? = some i) :
    ∃ halt, Performs s.machine.program i s.machine.core.next s.channel halt t.machine.core t.channel := by
  cases h with
  | halted halted =>
    rw [Machine.next?_eq_none_of_not_live (Machine.not_live_of_halted halted)] at hi
    cases hi
  | proceeded next performs | stopped next performs =>
    obtain rfl := Option.some.inj (hi.symm.trans next)
    exact ⟨_, performs⟩

end Session
end PCode
