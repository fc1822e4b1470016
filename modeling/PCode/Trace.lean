import PCode.Frame
import PCode.Instruction.Printer
import PCode.Text.Padding
/-!
Execution traces: the registers and the stack after every executed instruction, shown as a table
with a bar in front of every frame above the global one.
-/

namespace PCode

/-- `registers` and `stack` are those after execution, `frames` the bases of the live frames from
the innermost, `fault` is the error it ended in. -/
structure Trace.Row where
  index : Nat
  instruction : Instruction
  registers : Registers
  stack : Array Word
  frames : List Nat
  fault : Option Error
  deriving DecidableEq

structure Trace where
  initial : Registers
  initialStack : Array Word
  rows : Array Trace.Row
  deriving DecidableEq

namespace Trace

def ofInitial (registers : Registers) (stack : Array Word) : Trace := ⟨registers, stack, #[]⟩

def record (t : Trace) (index : Nat) (instruction : Instruction) (registers : Registers)
    (stack : Array Word) (fault : Option Error) : Trace :=
  let frames := Frame.chain stack registers.base
  { t with rows := t.rows.push { index, instruction, registers, stack, frames, fault } }

/-- The cells from an address on, each frame base but the bottom of the stack after a bar. -/
def stackTokens (frames : List Nat) (address : Nat) : List Word → List String
  | [] => []
  | w :: ws =>
    (if 0 < address ∧ address ∈ frames then ["|", toString w] else [toString w]) ++
      stackTokens frames (address + 1) ws

def stackText (frames : List Nat) (stack : Array Word) : String :=
  " ".intercalate (stackTokens frames 0 stack.toList)

def registersText (r : Registers) : String :=
  let column (s : String) := Text.padLeft 4 s
  s!"{column (toString r.pc)} {column (toString r.base)} {column (toString r.sp)}   "

def heading : String := Text.spaces 18 ++ "  PC   BP   SP   stack"

def Row.text (r : Row) : String :=
  let fault := match r.fault with
    | none => ""
    | some e => s!"   fault: {e.message}"
  s!"{Text.padLeft 4 (toString r.index)}  {Text.padRight 12 r.instruction.text}" ++
    registersText r.registers ++ stackText r.frames r.stack ++ fault

def text (t : Trace) : String :=
  let initial := Text.padRight 18 "initial values" ++ registersText t.initial ++
    stackText [t.initial.base] t.initialStack
  "\n".intercalate (heading :: initial :: t.rows.toList.map Row.text)

end Trace
end PCode
