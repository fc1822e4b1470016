import PCode.Proofs.Session.Bounds
/-!
What a step that raises a fault leaves behind: the counter past the instruction, the stack without the
operands that were popped, and the channel as it was unless it was the channel that failed.
-/

namespace PCode

namespace Machine

variable {m m' : Machine} {e : Error}

def Fetches (m : Machine) : Prop := m.checkBudget = .ok () ∧ m.core.pc < m.program.length

/-- How many cells an error takes off the stack. -/
def Removes (m : Machine) (e : Error) (k : Nat) : Prop :=
  match m.next? with
  | none => k = 0
  | some i => if e = .stackUnderflow then k < i.pops else k = i.pops

theorem core_of_fetch (h : m.fetch = (.error e, m')) :
    m'.core.base = m.core.base ∧ m'.core.stack = m.core.stack ∧
      (¬m.Fetches → m'.core.pc = m.core.pc) ∧ (m.Fetches → m'.core.pc = m.core.pc + 1) := by
  rcases fetch_eq_error_iff.mp h with ⟨hb, rfl⟩ | ⟨-, hf, rfl⟩ | ⟨hb, ⟨t, ht, -⟩, rfl⟩
  · refine ⟨rfl, rfl, fun _ => rfl, fun hf => ?_⟩
    rw [hf.1] at hb
    cases hb
  · have hl := (Program.fetch_eq_error_iff.mp hf).1
    exact ⟨rfl, rfl, fun _ => rfl, fun hf => absurd hf.2 (Nat.not_lt.mpr hl)⟩
  · exact ⟨rfl, rfl, fun hn => absurd ⟨hb, Program.lt_length_of_get? ht⟩ hn, fun _ => rfl⟩

theorem fetches_of_next? {i : Instruction} (h : m.next? = some i) : m.Fetches :=
  ⟨(fetch_eq_ok_iff.mp (next?_eq_some_iff.mp h).2).1, pc_lt_of_next? h⟩

end Machine

namespace Session

variable {σ : Type} [Channel σ] [LawfulChannel σ] {s t : Session σ} {fault : Fault}

/-- A step of `s` has raised the fault and left `t`. -/
structure Raised (s : Session σ) (fault : Fault) (t : Session σ) : Prop where
  pc : fault.pc = s.machine.core.pc
  registers : fault.registers = t.machine.registers
  base : t.machine.core.base = s.machine.core.base
  unfetched : ¬s.machine.Fetches → t.machine.core.pc = s.machine.core.pc
  fetched : s.machine.Fetches → t.machine.core.pc = s.machine.core.pc + 1
  stack : ∃ k ≤ s.machine.core.stack.depth,
    t.machine.core.stack = s.machine.core.stack.drop k ∧ s.machine.Removes fault.error k
  channel : (∀ text, fault.error ≠ .io text) → (∀ cause, fault.error ≠ .invalidInput cause) →
    t.channel = s.channel
  overflow : ∀ limit, fault.error = .stackOverflow limit →
    ∃ i, s.machine.next? = some i ∧ (i.opcode ∈ [.lit, .lod, .lda, .inc, .cal] ∨ i = .sio .read)

theorem opcode_of_pushes {i : Instruction} (hpops : i.pops = 0) (hpushes : i.pushes ≠ 0) :
    i.opcode ∈ [.lit, .lod, .lda, .inc, .cal] ∨ i = .sio .read := by
  cases i with
  | lit | lod | lda | inc | cal =>
    left
    simp only [Instruction.opcode, List.mem_cons, true_or, or_true]
  | sto | jpc | sta => exact absurd hpops Nat.one_ne_zero
  | jmp => exact absurd rfl hpushes
  | opr op =>
    cases op with
    | ret => exact absurd rfl hpushes
    | unary => exact absurd hpops Nat.one_ne_zero
    | binary => exact absurd hpops (Nat.succ_ne_zero 1)
  | sio service =>
    cases service with
    | write => exact absurd hpops Nat.one_ne_zero
    | read => exact .inr rfl
    | halt => exact absurd rfl hpushes

theorem kind_ne_io {e : Error} (hio : ∀ text, e ≠ .io text) (hinput : ∀ cause, e ≠ .invalidInput cause) :
    e.kind ≠ .io := by
  cases e with
  | io text => exact absurd rfl (hio text)
  | invalidInput cause => exact absurd rfl (hinput cause)
  | _ => nofun

theorem Stepped.raised (hb : s.machine.core.stack.Bounded) (live : s.machine.Live)
    (h : Stepped s (.error fault) t) : s.Raised fault t := by
  cases h with
  | faulted faulted held => exact absurd live (Machine.not_live_of_faulted faulted held)
  | unfetched _ fetch snapshot =>
    subst snapshot
    obtain ⟨hbase, hstack, hu, hf⟩ := Machine.core_of_fetch fetch
    have hn := Machine.next?_eq_none_of_fetch fetch
    constructor
    case pc => rfl
    case registers => rfl
    case base => exact hbase
    case unfetched => exact hu
    case fetched => exact hf
    case stack =>
      refine ⟨0, Nat.zero_le _, ?_, ?_⟩
      · rw [Stack.drop_zero]
        exact hstack
      · simp only [Machine.Removes, hn]
    case channel =>
      intro _ _
      rfl
    case overflow =>
      rintro limit rfl
      rcases Machine.error_of_fetch fetch with ⟨_, he⟩ | ⟨_, _, he⟩ | he <;> cases he
  | @failed i _ _ _ _ next performs snapshot =>
    subst snapshot
    have hn : s.machine.core.next.stack.Bounded := hb
    obtain ⟨rfl, fails⟩ := fails_of_perform hn.capacity performs
    have hf := Machine.fetches_of_next? next
    constructor
    case pc => rfl
    case registers => rfl
    case base => rfl
    case unfetched =>
      intro hu
      exact absurd hf hu
    case fetched =>
      intro _
      rfl
    case stack =>
      refine ⟨s.machine.core.next.popped i, ?_, rfl, ?_⟩
      · exact Nat.le_trans (Nat.min_le_right _ _) (Nat.sub_le _ _)
      · simp only [Machine.Removes, next]
        exact fails.popped
    case channel =>
      intro hio hinput
      exact fails.channel_eq (kind_ne_io hio hinput)
    case overflow =>
      rintro limit rfl
      obtain ⟨hpops, hpushes⟩ := fails.pushes rfl
      exact ⟨i, next, opcode_of_pushes hpops (Nat.ne_of_gt hpushes)⟩

theorem raised_of_step {program : Program} {settings : Settings} {log : List Execution}
    (h : Machine.Reached (fun _ _ _ => True) program settings log s.machine) (live : s.machine.Live)
    (hs : s.step = (.error fault, t)) : s.Raised fault t :=
  (stepped_of_step hs).raised h.sized.bounded live

theorem raised_division :
    let program := Program.ofInstructions [.lit 7, .lit 0, .opr (.binary .quotient)]
    let s := (scripted (.ofProgram program) []).after 2
    ∃ fault, fault.error = .divisionByZero ∧ s.Raised fault s.step.2 := by
  intro program s
  have h₀ : Machine.Reached (fun _ _ _ => True) program {} [] (.ofProgram program) := .built .ofProgram
  have h := h₀.after (s := scripted (.ofProgram program) []) 2 fun _ _ => trivial
  have live : s.machine.Live := Machine.live_of_running rfl
  exact ⟨⟨.divisionByZero, 2, s.step.2.machine.registers⟩, rfl, raised_of_step h live rfl⟩

end Session
end PCode
