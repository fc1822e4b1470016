import PCode.Proofs.Frame.Walk
import PCode.Proofs.Session.Bounds
/-!
The range of what a machine computes about itself. Whatever a program writes over its own frames, the
registers stay where a word can hold them, and no sum or cast leaves 64 bits.
-/

namespace PCode.Machine

open PCode.Frame (headerSize dynamicLink staticLink returnAddress)

variable {program : Program} {settings : Settings} {log : List Execution} {m m₁ : Machine}
  {level target : Nat}

/-- The links of a call are stored without loss and read back as they were. -/
structure Linked (level : Nat) (m m₁ : Machine) : Prop where
  header_le : headerSize ≤ m₁.core.base
  links : ∃ declaring, Frame.resolve m.core.stack m.core.base level = .ok declaring ∧
    (∀ n ∈ [m.core.base, declaring, m.core.pc + 1], (Word.ofIndex n).toInt = n) ∧
      Frame.link m₁.core.stack m₁.core.base dynamicLink = .ok m.core.base ∧
      Frame.link m₁.core.stack m₁.core.base staticLink = .ok declaring ∧
      Frame.link m₁.core.stack m₁.core.base returnAddress = .ok (m.core.pc + 1)

/-- `log` are the executions since the last reset. -/
structure Ranged (settings : Settings) (log : List Execution) (m : Machine) : Prop where
  header_le : headerSize ≤ m.core.stack.depth
  depth_le : m.core.stack.depth ≤ settings.stackSize
  capacity : m.core.stack.capacity = settings.stackSize
  sp : m.registers.sp = m.core.stack.depth - 1
  base : m.core.base ≤ 0x7fffffffffffffff
  pc : m.core.pc ≤ 0x7fffffffffffffff
  link : ∀ s level f, Frame.resolve s m.core.base level = .ok f → ∀ slot < headerSize, f + slot < UInt64.size
  next : m.core.pc + 1 < UInt64.size
  grow : ∀ amount, m.core.stack.ensureRoom amount = .ok () → m.core.stack.depth + amount < UInt64.size
  steps : m.steps = log.length ∧ m.steps < UInt64.size
  calls : ∀ level target m₁, m.Executes (.cal level target) m₁ → m.Linked level m₁

theorem Executes.linked (call : m.Executes (.cal level target) m₁) (hbase : m.core.base < Word.indexCount)
    (hlength : m.program.length < Word.indexCount) (hdepth : headerSize ≤ m.core.stack.depth) :
    m.Linked level m₁ := by
  obtain ⟨declaring, walk, h₁⟩ := call.enters
  have hdeclaring := (Frame.resolve_eq_ok_iff.mp walk).lt hbase
  have hpc : m.core.pc + 1 < Word.indexCount := by
    obtain ⟨_, _, _, _, _, _, _, hi, _⟩ := call
    exact Nat.lt_of_le_of_lt (pc_lt_of_next? hi) hlength
  constructor
  · rw [h₁]
    exact hdepth
  · refine ⟨declaring, walk, ?_, ?_⟩
    · intro n hn
      apply Word.toInt_ofIndex
      simp only [List.mem_cons, List.not_mem_nil, or_false] at hn
      rcases hn with rfl | rfl | rfl
      · exact hbase
      · exact hdeclaring
      · exact hpc
    · rw [h₁]
      exact ⟨Frame.link_enter hbase rfl, Frame.link_enter hdeclaring rfl, Frame.link_enter hpc rfl⟩

theorem Reached.ranged (reached : Reached (fun _ _ s => s.machine.Addressable) program settings log m)
    (addressable : m.Addressable) (fits : settings.stackSize < UInt64.size) (few : log.length < UInt64.size) :
    m.Ranged settings log := by
  have hbase : m.core.base < Word.indexCount := reached.base_lt fun h => h
  have hpc : m.core.pc < Word.indexCount := reached.pc_lt fun h => h
  have hcapacity := reached.capacity_eq
  have hsteps := reached.steps
  have hcount : Word.indexCount = 0x8000000000000000 := rfl
  have hsize : UInt64.size = 0x10000000000000000 := rfl
  constructor
  case header_le => exact reached.sized.header_le
  case depth_le =>
    rw [← hcapacity]
    exact reached.sized.bounded.capacity
  case capacity => exact hcapacity
  case sp => rfl
  case base => omega
  case pc => omega
  case link =>
    intro s level f h slot hslot
    have hf := (Frame.resolve_eq_ok_iff.mp h).lt hbase
    simp only [headerSize] at hslot
    omega
  case next => omega
  case grow =>
    intro amount h
    have hroom := Stack.ensureRoom_eq_ok_iff.mp h
    omega
  case steps =>
    rw [hsteps]
    exact ⟨rfl, few⟩
  case calls =>
    intro level target m₁ call
    exact call.linked hbase addressable.program reached.sized.header_le

/-- Has returned by links that it had overwritten itself. -/
def straying : Session QueueChannel :=
  (Session.scripted (.ofProgram (.ofInstructions
    [.cal 0 2, .sio .halt, .lit 40, .sta 3, .lit 5, .sta 5, .opr .ret])) []).after 6

theorem ranged_straying :
    straying.machine.core.pc = 5 ∧ straying.machine.core.base = 40 ∧ straying.machine.steps = 6 ∧
      ∃ log, straying.machine.Ranged {} log := by
  have built : Reached (fun _ _ _ => True) straying.machine.program {} [] (.ofProgram straying.machine.program) :=
    .built .ofProgram
  have reached := built.after (s := .scripted _ []) 6 fun _ _ => trivial
  have steps : straying.machine.steps = 6 := rfl
  have addressable := reached.addressable (by decide) (by decide)
  refine ⟨rfl, rfl, steps, _, Reached.ranged (reached.of_small (by decide) (by decide)) addressable ?_ ?_⟩
  · decide
  · rw [← reached.steps]
    exact steps ▸ (by decide : 6 < UInt64.size)

end PCode.Machine
