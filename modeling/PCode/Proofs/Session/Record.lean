import PCode.Proofs.Session.Lifecycle
/-!
The records of a run. The trace, the profile and the counter of steps tell of the same executions, and no
execution but the last one ends in an error.
-/

namespace PCode

/-- The parts of a cycle, in their order. -/
inductive Stage where
  | budget | fetch | decode | execute
  deriving DecidableEq

namespace Fault

variable {program : Program} {e : Error} {pc : Nat} {registers : Registers} {t : Triple}

/-- Nothing but an exhausted budget is told as a cancellation. -/
def stage (program : Program) (fault : Fault) : Stage :=
  if fault.error.kind = .cancelled then .budget
  else
    match program.get? fault.pc with
    | none => .fetch
    | some t =>
      match t.decode with
      | .error _ => .decode
      | .ok _ => .execute

theorem stage_of_cancelled (h : e.kind = .cancelled) : stage program ⟨e, pc, registers⟩ = .budget := by
  simp only [stage, if_pos h]

theorem stage_of_unfetched (h : e.kind ≠ .cancelled) (ht : program.get? pc = none) :
    stage program ⟨e, pc, registers⟩ = .fetch := by
  simp only [stage, if_neg h, ht]

theorem stage_of_undecoded {e' : Error} (h : e.kind ≠ .cancelled) (ht : program.get? pc = some t)
    (hd : t.decode = .error e') : stage program ⟨e, pc, registers⟩ = .decode := by
  simp only [stage, if_neg h, ht, hd]

theorem stage_of_decoded {i : Instruction} (h : e.kind ≠ .cancelled) (ht : program.get? pc = some t)
    (hd : t.decode = .ok i) : stage program ⟨e, pc, registers⟩ = .execute := by
  simp only [stage, if_neg h, ht, hd]

end Fault

namespace Trace

/-- What a row says by itself. -/
structure Row.Sound (program : Program) (row : Row) : Prop where
  decoded : ∃ t, program.get? row.index = some t ∧ t.decode = .ok row.instruction
  sp : row.registers.sp = row.stack.size - 1
  frames : row.frames = Frame.chain row.stack row.registers.base

/-- The first row is about the first instruction, and every other one is about the instruction that the row
before has led to. -/
structure Linked (program : Program) (t : Trace) : Prop where
  sound : ∀ row ∈ t.rows, row.Sound program
  first : ∀ row, t.rows[0]? = some row → row.index = 0
  next : ∀ k row row', t.rows[k]? = some row → t.rows[k + 1]? = some row' →
    row.fault = none ∧ row'.index = row.registers.pc

def push (t : Trace) (row : Row) : Trace := { t with rows := t.rows.push row }

theorem Linked.push {program : Program} {t : Trace} {row : Row} (h : t.Linked program)
    (sound : row.Sound program) (start : t.rows.size = 0 → row.index = 0)
    (follows : ∀ latest, t.rows.back? = some latest → latest.fault = none ∧ row.index = latest.registers.pc) :
    (t.push row).Linked program := by
  constructor
  case sound =>
    intro row' hr
    rcases Array.mem_push.mp hr with hr | rfl
    · exact h.sound row' hr
    · exact sound
  case first =>
    intro row' hr
    rw [Trace.push, Array.getElem?_push] at hr
    split at hr
    case isTrue hs =>
      obtain rfl := Option.some.inj hr
      exact start hs.symm
    case isFalse => exact h.first row' hr
  case next =>
    intro k latest row' hr hr'
    rw [Trace.push, Array.getElem?_push] at hr hr'
    by_cases hk : k = t.rows.size
    · rw [if_neg (by omega), Array.getElem?_eq_none (by omega)] at hr'
      cases hr'
    rw [if_neg hk] at hr
    by_cases hs : k + 1 = t.rows.size
    · rw [if_pos hs] at hr'
      obtain rfl := Option.some.inj hr'
      apply follows
      rw [Array.back?_eq_getElem?, ← hs]
      exact hr
    · rw [if_neg hs] at hr'
      exact h.next k latest row' hr hr'

end Trace

namespace Machine

def FaultedAt (stage : Stage) (m : Machine) : Prop :=
  m.state = .faulted ∧ ∃ fault, m.fault = some fault ∧ fault.stage m.program = stage

/-- The machine is as the row leaves it, and so is its fault if it was raised there. -/
structure Left (m : Machine) (row : Trace.Row) : Prop where
  stack : m.stack = row.stack
  registers : ¬m.FaultedAt .decode → m.registers = row.registers
  undecoded : m.FaultedAt .decode → m.registers = { row.registers with pc := row.registers.pc + 1 }
  fault : ∀ fault, m.fault = some fault → fault.stage m.program = .execute →
    row.fault = some fault.error ∧ row.index = fault.pc ∧ row.registers = fault.registers

structure Recorded (m : Machine) (t : Trace) : Prop where
  trace : m.trace = some t
  length : t.rows.size = m.steps
  linked : t.Linked m.program
  raised : (∃ row, t.rows.back? = some row ∧ row.fault.isSome) ↔ m.FaultedAt .execute
  last : ∀ row, t.rows.back? = some row → m.Left row
  idle : m.Live → t.rows.size = 0 → m.core.pc = 0
  count : ∀ op, m.profile.count op = t.rows.countP fun row => row.instruction.opcode = op
  total : m.profile.total = m.steps

variable {m m' : Machine} {t : Trace} {i : Instruction} {core : Core} {error : Option Error} {state : State}
  {haltReason : Option HaltReason} {e : Error} {fault : Fault} {stage : Stage}

theorem not_faultedAt_of_live (live : m.Live) : ¬m.FaultedAt stage := by
  rintro ⟨hs, fault, hf, -⟩
  exact not_live_of_faulted hs hf live

theorem recorded_fresh (program : Program) {settings : Settings} (on : settings.trace = true) :
    ∃ t, (fresh program settings).Recorded t := by
  have live : (fresh program settings).Live := live_of_ready rfl
  have empty (k : Nat) {row : Trace.Row} : ¬(#[] : Array Trace.Row)[k]? = some row := by simp
  refine ⟨.ofInitial (fresh program settings).registers (fresh program settings).stack, ?_⟩
  constructor
  case trace => exact if_pos on
  case length => rfl
  case linked =>
    constructor
    · intro row hr
      exact absurd hr (Array.not_mem_empty row)
    · intro row hr
      exact absurd hr (empty 0)
    · intro k row _ hr
      exact absurd hr (empty k)
  case raised =>
    apply iff_of_false
    · rintro ⟨row, hr, -⟩
      exact empty _ hr
    · exact not_faultedAt_of_live live
  case last =>
    intro row hr
    exact absurd hr (empty _)
  case idle =>
    intro _ _
    rfl
  case count => exact Profile.count_empty
  case total => exact Profile.total_empty

theorem Recorded.follows (h : m.Recorded t) (live : m.Live) {latest : Trace.Row}
    (hr : t.rows.back? = some latest) : latest.fault = none ∧ m.core.pc = latest.registers.pc := by
  constructor
  · cases hf : latest.fault with
    | none => rfl
    | some e =>
      have faulted := h.raised.mp ⟨latest, hr, Option.isSome_of_eq_some hf⟩
      exact absurd faulted (not_faultedAt_of_live live)
  · exact congrArg Registers.pc ((h.last latest hr).registers (not_faultedAt_of_live live))

/-- The machine after an execution. It holds a fault if the execution ended in an error. -/
def concluded (m : Machine) (i : Instruction) (core : Core) (error : Option Error) (state : State)
    (haltReason : Option HaltReason) : Machine :=
  { m.executed i core error with
    state
    haltReason
    fault := error.map fun e => ⟨e, m.core.pc, core.registers⟩ }

theorem executed_eq_concluded (unheld : m.fault = none) :
    m.executed i core none = m.concluded i core none .running m.haltReason := by
  rw [concluded, Option.map_none, ← unheld]
  rfl

theorem halt_executed_eq_concluded (unheld : m.fault = none) (reason : HaltReason) :
    (m.executed i core none).halt reason = m.concluded i core none .halted (some reason) := by
  rw [concluded, Option.map_none, ← unheld]
  rfl

/-- The row of an execution. -/
def row (m : Machine) (i : Instruction) (core : Core) (error : Option Error) : Trace.Row where
  index := m.core.pc
  instruction := i
  registers := core.registers
  stack := core.stack.cells
  frames := Frame.chain core.stack.cells core.base
  fault := error

theorem sound_row (next : m.next? = some i) : (m.row i core error).Sound m.program where
  decoded := decode_of_next? next
  sp := rfl
  frames := rfl

section

variable (next : m.next? = some i) (uncancelled : ∀ e, error = some e → e.kind ≠ .cancelled)
include next uncancelled

theorem fault_concluded (hf : (m.concluded i core error state haltReason).fault = some fault) :
    error = some fault.error ∧ m.core.pc = fault.pc ∧ core.registers = fault.registers ∧
      fault.stage m.program = .execute := by
  obtain ⟨e, he, rfl⟩ := Option.map_eq_some_iff.mp hf
  obtain ⟨t, ht, hd⟩ := decode_of_next? next
  exact ⟨he, rfl, rfl, Fault.stage_of_decoded (uncancelled e he) ht hd⟩

theorem faultedAt_concluded_iff (faulted : state = .faulted ↔ error.isSome) :
    (m.concluded i core error state haltReason).FaultedAt stage ↔ error.isSome ∧ stage = .execute := by
  constructor
  · rintro ⟨-, fault, hf, rfl⟩
    obtain ⟨he, -, -, hs⟩ := fault_concluded next uncancelled hf
    exact ⟨Option.isSome_of_eq_some he, hs⟩
  · rintro ⟨he, rfl⟩
    obtain ⟨e, rfl⟩ := Option.isSome_iff_exists.mp he
    have raised : (m.concluded i core (some e) state haltReason).fault = some ⟨e, m.core.pc, core.registers⟩ := rfl
    obtain ⟨-, -, -, hs⟩ := fault_concluded next uncancelled raised
    exact ⟨faulted.mpr he, _, raised, hs⟩

theorem left_concluded (faulted : state = .faulted ↔ error.isSome) :
    (m.concluded i core error state haltReason).Left (m.row i core error) := by
  constructor
  case stack => rfl
  case registers =>
    intro _
    rfl
  case undecoded =>
    intro hd
    cases ((faultedAt_concluded_iff next uncancelled faulted).mp hd).2
  case fault =>
    intro fault hf _
    obtain ⟨he, hpc, hr, -⟩ := fault_concluded next uncancelled hf
    exact ⟨he, hpc, hr⟩

theorem Recorded.push (h : m.Recorded t) (faulted : state = .faulted ↔ error.isSome) :
    (m.concluded i core error state haltReason).Recorded (t.push (m.row i core error)) := by
  have live := (next?_eq_some_iff.mp next).1
  have back : (t.push (m.row i core error)).rows.back? = some (m.row i core error) := Array.back?_push
  constructor
  case trace =>
    rw [concluded, executed, h.trace]
    rfl
  case length =>
    rw [Trace.push, Array.size_push, h.length]
    rfl
  case linked =>
    apply h.linked.push
    · exact sound_row next
    · exact h.idle live
    · intro latest hr
      exact h.follows live hr
  case raised =>
    rw [back, faultedAt_concluded_iff next uncancelled faulted]
    simp [row]
  case last =>
    intro row hr
    obtain rfl := Option.some.inj (back.symm.trans hr)
    exact left_concluded next uncancelled faulted
  case idle =>
    intro _ hs
    rw [Trace.push, Array.size_push] at hs
    cases hs
  case count =>
    intro op
    rw [Trace.push, Array.countP_push, ← h.count op, concluded, executed, Profile.count_record]
    by_cases ho : i.opcode = op <;> simp [row, ho]
  case total =>
    rw [concluded, executed, Profile.total_record, h.total]

end

/-- The stage of a fault that is raised before the instruction is executed, and the core it leaves. -/
def Stalls (m : Machine) (fault : Fault) (core : Core) : Prop :=
  (fault.stage m.program = .budget ∨ fault.stage m.program = .fetch) ∧ core = m.core ∨
    fault.stage m.program = .decode ∧ core = m.core.next

theorem Stalls.stage_ne (h : m.Stalls fault core) : fault.stage m.program ≠ .execute := by
  rcases h with ⟨hs | hs, -⟩ | ⟨hs, -⟩
  all_goals
    rw [hs]
    nofun

theorem Recorded.stall (h : m.Recorded t) (live : m.Live) (stalls : m.Stalls fault core) :
    (({ m with core } : Machine).fail fault).Recorded t := by
  have faultedAt {stage : Stage} :
      (({ m with core } : Machine).fail fault).FaultedAt stage ↔ fault.stage m.program = stage := by
    constructor
    · rintro ⟨-, fault, hf, hs⟩
      cases hf
      exact hs
    · intro hs
      exact ⟨rfl, fault, rfl, hs⟩
  constructor
  case trace => exact h.trace
  case length => exact h.length
  case linked => exact h.linked
  case raised =>
    apply iff_of_false
    · rintro ⟨row, hr, hf⟩
      rw [(h.follows live hr).1] at hf
      cases hf
    · rw [faultedAt]
      exact stalls.stage_ne
  case last =>
    intro row hr
    have before := h.last row hr
    have registers := before.registers (not_faultedAt_of_live live)
    constructor
    case stack =>
      rcases stalls with ⟨-, rfl⟩ | ⟨-, rfl⟩
      · exact before.stack
      · exact before.stack
    case registers =>
      intro hd
      rw [faultedAt] at hd
      rcases stalls with ⟨-, rfl⟩ | ⟨hs, -⟩
      · exact registers
      · exact absurd hs hd
    case undecoded =>
      intro hd
      rw [faultedAt] at hd
      rcases stalls with ⟨hs | hs, -⟩ | ⟨-, rfl⟩
      · rw [hs] at hd
        cases hd
      · rw [hs] at hd
        cases hd
      · rw [← registers]
        rfl
    case fault =>
      intro _ hf hs
      cases hf
      exact absurd hs stalls.stage_ne
  case idle =>
    intro live'
    exact absurd live' (not_live_of_faulted rfl rfl)
  case count => exact h.count
  case total => exact h.total

theorem stalls_of_fetch (h : m.fetch = (.error e, m')) (snapshot : fault = ⟨e, m.core.pc, m'.registers⟩) :
    m.Stalls fault m'.core ∧ m' = { m with core := m'.core } := by
  subst snapshot
  rcases fetch_eq_error_iff.mp h with ⟨hb, rfl⟩ | ⟨-, hf, rfl⟩ | ⟨-, ⟨t, ht, hd⟩, rfl⟩
  · obtain ⟨limit, rfl⟩ := exists_limit_of_checkBudget hb
    exact ⟨.inl ⟨.inl (Fault.stage_of_cancelled rfl), rfl⟩, rfl⟩
  · obtain ⟨outside, rfl⟩ := Program.fetch_eq_error_iff.mp hf
    have hk : (Error.invalidProgramCounter m'.core.pc m'.program.length).kind ≠ .cancelled := nofun
    have ht := Program.get?_eq_none_iff.mpr outside
    exact ⟨.inl ⟨.inr (Fault.stage_of_unfetched hk ht), rfl⟩, rfl⟩
  · have hk := (Triple.decode_ofDecoding hd).kind_ne_cancelled
    exact ⟨.inr ⟨Fault.stage_of_undecoded hk ht hd, rfl⟩, rfl⟩

end Machine

namespace Session

variable {σ : Type} [Channel σ] {s u : Session σ} {fault : Fault}

theorem kind_ne_cancelled_of_perform [LawfulChannel σ] {program : Program} {i : Instruction} {c d : Core} {e : Error}
    {channel channel' : σ} (bounded : c.stack.Bounded)
    (h : perform program i c channel = (.error e d, channel')) : e.kind ≠ .cancelled :=
  (fails_of_perform bounded.capacity h).2.kind_ne_cancelled

/-- The stage, which is read off the fault, is the one that has raised it. -/
theorem Stepped.stage_eq_execute_iff [LawfulChannel σ] (h : Stepped s (.error fault) u) (live : s.machine.Live)
    (bounded : s.machine.core.stack.Bounded) :
    fault.stage s.machine.program = .execute ↔ ∃ i, s.machine.next? = some i := by
  cases h with
  | faulted faulted held => exact absurd live (Machine.not_live_of_faulted faulted held)
  | unfetched _ fetch snapshot =>
    obtain ⟨stalls, -⟩ := Machine.stalls_of_fetch fetch snapshot
    have idle := Machine.next?_eq_none_of_fetch fetch
    simp [stalls.stage_ne, idle]
  | failed next performs snapshot =>
    subst snapshot
    have hn : s.machine.core.next.stack.Bounded := bounded
    obtain ⟨t, ht, hd⟩ := Machine.decode_of_next? next
    have hk := kind_ne_cancelled_of_perform hn performs
    exact iff_of_true (Fault.stage_of_decoded hk ht hd) ⟨_, next⟩

end Session

namespace Machine

theorem Recorded.step {σ : Type} [Channel σ] [LawfulChannel σ] {s u : Session σ} {r : Except Fault State}
    {t : Trace} (h : s.machine.Recorded t) (coherent : s.machine.Coherent)
    (bounded : s.machine.core.stack.Bounded) (hs : Session.Stepped s r u) : ∃ t', u.machine.Recorded t' := by
  have unheld {i : Instruction} (next : s.machine.next? = some i) : s.machine.fault = none :=
    (coherent.live_iff.mp (next?_eq_some_iff.mp next).1).1
  cases hs with
  | halted | faulted => exact ⟨t, h⟩
  | unfetched live fetch snapshot =>
    obtain ⟨stalls, hm⟩ := stalls_of_fetch fetch snapshot
    rw [hm]
    exact ⟨t, h.stall live stalls⟩
  | proceeded next =>
    rw [executed_eq_concluded (unheld next)]
    exact ⟨_, h.push next nofun (by simp)⟩
  | stopped next =>
    rw [halt_executed_eq_concluded (unheld next)]
    exact ⟨_, h.push next nofun (by simp)⟩
  | @failed i e core _ _ next performs snapshot =>
    subst snapshot
    have hn : s.machine.core.next.stack.Bounded := bounded
    have uncancelled : ∀ e', some e = some e' → e'.kind ≠ .cancelled := by
      rintro _ ⟨⟩
      exact Session.kind_ne_cancelled_of_perform hn performs
    have concluded : (s.machine.concluded i core (some e) .faulted s.machine.haltReason).Recorded _ :=
      h.push next uncancelled (by simp)
    exact ⟨_, concluded⟩

variable {program : Program} {settings : Settings} {log : List Execution} {m : Machine}

theorem Reached.recorded (h : Reached (fun σ _ _ => LawfulChannel σ) program settings log m)
    (on : settings.trace = true) : ∃ t, m.Recorded t := by
  induction h using Reached.induct with
  | built m h => exact h.eq_fresh ▸ recorded_fresh program on
  | step σ s log h lawful ih =>
    obtain ⟨t, ht⟩ := ih
    exact ht.step h.coherent h.sized.bounded (Session.stepped s)
  | reset log m h => exact h.sized.reset ▸ recorded_fresh program on

theorem recorded_dividing :
    let program := Program.ofInstructions [.lit 7, .lit 0, .opr (.binary .quotient)]
    let settings : Settings := { trace := true }
    let s : Session QueueChannel := (Session.scripted (.fresh program settings) []).after 3
    s.machine.FaultedAt .execute ∧ settings.trace = true ∧ ∃ t, s.machine.Recorded t := by
  intro program settings s
  have h₀ : Reached (fun σ _ _ => LawfulChannel σ) program settings [] (.fresh program settings) :=
    .built (.ofSettings rfl)
  have h := h₀.after (s := Session.scripted (.fresh program settings) []) 3 fun _ _ => inferInstance
  have held : s.machine.fault = some ⟨.divisionByZero, 2, s.machine.registers⟩ := by decide +kernel
  have executing : Fault.stage program ⟨.divisionByZero, 2, s.machine.registers⟩ = .execute := rfl
  exact ⟨⟨by decide +kernel, _, held, executing⟩, rfl, h.recorded rfl⟩

end Machine
end PCode
