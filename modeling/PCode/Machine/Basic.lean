import PCode.Machine.Execute
import PCode.Profile
import PCode.Settings
import PCode.Trace
/-!
Machines: a program with its settings, the core it runs on, and the records of the run so far.
-/

namespace PCode

inductive Machine.State where
  | ready | running | halted | faulted
  deriving DecidableEq

/-- The state says whether a machine halted or faulted, two fields of their own say why. -/
structure Machine where
  program : Program
  settings : Settings
  core : Core
  state : Machine.State
  haltReason : Option HaltReason
  fault : Option Fault
  steps : Nat
  profile : Profile
  trace : Option Trace
  deriving DecidableEq

structure Summary where
  reason : HaltReason
  registers : Registers
  stack : Array Word
  steps : Nat
  deriving DecidableEq

def Core.initial (capacity : Nat) : Core :=
  ⟨0, Frame.globalBase, Stack.withReserved capacity Frame.headerSize⟩

namespace Machine

/-- The global frame lies at the bottom of the stack and is reserved. -/
def reset (m : Machine) : Machine :=
  let core := Core.initial m.settings.stackSize
  { m with
    core
    state := .ready
    haltReason := none
    fault := none
    steps := 0
    profile := .empty
    trace := if m.settings.trace then some (.ofInitial core.registers core.stack.cells) else none }

def fresh (program : Program) (settings : Settings) : Machine :=
  reset
    { program, settings
      core := Core.initial settings.stackSize
      state := .ready
      haltReason := none
      fault := none
      steps := 0
      profile := .empty
      trace := none }

def ofProgram (program : Program) : Machine := fresh program {}

def ofSettings (program : Program) (settings : Settings) : Except Error Machine := do
  settings.validate
  return reset { ofProgram program with settings }

def registers (m : Machine) : Registers := m.core.registers

def stack (m : Machine) : Array Word := m.core.stack.cells

def start (m : Machine) : Machine := { m with state := .running }

def halt (m : Machine) (reason : HaltReason) : Machine :=
  { m with state := .halted, haltReason := some reason }

def fail (m : Machine) (fault : Fault) : Machine :=
  { m with state := .faulted, fault := some fault }

/-- A machine that gives no reason for its end counts as halted by an instruction. -/
def summary (m : Machine) : Summary :=
  ⟨m.haltReason.getD .halt, m.registers, m.stack, m.steps⟩

def checkBudget (m : Machine) : Except Error Unit :=
  match m.settings.stepLimit with
  | none => .ok ()
  | some limit => if limit ≤ m.steps then .error (.stepLimitExceeded limit) else .ok ()

/-- The counter moves on before the triple is decoded. -/
def fetch (m : Machine) : Except Error Instruction × Machine :=
  match m.checkBudget with
  | .error e => (.error e, m)
  | .ok () =>
    match m.program.fetch m.core.pc with
    | .error e => (.error e, m)
    | .ok t =>
      let ⟨program, settings, ⟨pc, base, stack⟩, state, haltReason, fault, steps, profile, trace⟩ := m
      (t.decode,
        ⟨program, settings, ⟨pc + 1, base, stack⟩, state, haltReason, fault, steps, profile, trace⟩)

end Machine
end PCode
