import PCode.Log
import PCode.Machine.Basic
/-!
What a machine reports about itself, and the journal that keeps what is at or above a threshold.
-/

namespace PCode

inductive Event where
  | started (length capacity : Nat)
  | executing (index : Nat) (instruction : Instruction)
  | halted (reason : HaltReason) (steps : Nat) (registers : Registers)
  | faulted (fault : Fault)
  deriving DecidableEq

namespace Event

def level : Event → Log.Level
  | started _ _ => .info
  | executing _ _ => .debug
  | halted _ _ _ => .info
  | faulted _ => .error

def message : Event → String
  | started length capacity =>
    s!"running program of {length} instructions (stack capacity {capacity})"
  | executing index i => s!"{Text.padLeft 4 (toString index)}  {i.text}"
  | halted reason steps registers =>
    s!"halted ({reason.text}) after {steps} instructions, {registers.text}"
  | faulted fault => fault.message

def target : String := "pl0_vm::virtual_machine::vm"

end Event

structure Journal where
  threshold : Log.Level
  events : Array Event := #[]
  deriving DecidableEq

namespace Journal

def note (j : Journal) (e : Event) : Journal :=
  if j.threshold ≤ e.level then { j with events := j.events.push e } else j

/-- The clock is read for every line. -/
def text (j : Journal) (terminal : Log.Terminal) (style : Log.Style) (clock : Nat → Log.Instant) :
    String :=
  String.join (j.events.toList.mapIdx fun k e =>
    Log.line terminal style (clock k) e.level Event.target e.message)

end Journal
end PCode
