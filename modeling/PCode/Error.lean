import PCode.Numeral
import PCode.Registers
import PCode.Text.Quoted
/-!
What can go wrong when a program is decoded or run, or a machine is set up, with the text and the
kind of each cause.
-/

namespace PCode

inductive Error where
  | invalidOpcode (opcode : UInt8)
  | invalidSubOperation (opcode : String) (selector : Word)
  | invalidOperand (opcode field : String) (value : Word)
  | stackOverflow (limit : Nat)
  | stackUnderflow
  | invalidAddress (address : Nat) (sp : Int)
  | invalidStackOffset (offset depth : Nat)
  | invalidLink (address : Nat) (value : Word)
  | staticChainExhausted (level base : Nat)
  | invalidProgramCounter (pc length : Nat)
  | divisionByZero
  | moduloByZero
  | integerOverflow (operation : String)
  | io (text : String)
  | invalidInput (cause : NumeralError)
  | stepLimitExceeded (limit : Nat)
  | invalidConfig (key value : String)
  deriving DecidableEq

inductive ErrorKind where
  | invalidOpcode | invalidSubOperation | stackOverflow | stackUnderflow | invalidAddress
  | arithmetic | io | cancelled | configuration
  deriving DecidableEq

def ErrorKind.text : ErrorKind → String
  | .invalidOpcode => "invalid opcode"
  | .invalidSubOperation => "invalid sub-operation"
  | .stackOverflow => "stack overflow"
  | .stackUnderflow => "stack underflow"
  | .invalidAddress => "invalid address"
  | .arithmetic => "arithmetic error"
  | .io => "io error"
  | .cancelled => "cancelled"
  | .configuration => "configuration error"

namespace Error

def kind : Error → ErrorKind
  | invalidOpcode _ => .invalidOpcode
  | invalidSubOperation _ _ => .invalidSubOperation
  | stackOverflow _ => .stackOverflow
  | stackUnderflow => .stackUnderflow
  | invalidOperand _ _ _ => .invalidAddress
  | invalidAddress _ _ => .invalidAddress
  | invalidStackOffset _ _ => .invalidAddress
  | invalidLink _ _ => .invalidAddress
  | staticChainExhausted _ _ => .invalidAddress
  | invalidProgramCounter _ _ => .invalidAddress
  | divisionByZero => .arithmetic
  | moduloByZero => .arithmetic
  | integerOverflow _ => .arithmetic
  | io _ => .io
  | invalidInput _ => .io
  | stepLimitExceeded _ => .cancelled
  | invalidConfig _ _ => .configuration

def message : Error → String
  | invalidOpcode opcode => s!"invalid opcode {opcode}"
  | invalidSubOperation opcode selector => s!"invalid {opcode} sub-operation {selector}"
  | invalidOperand opcode field value => s!"{opcode} has negative {field} operand {value}"
  | stackOverflow limit => s!"stack overflow: capacity of {limit} cells exhausted"
  | stackUnderflow => "stack underflow"
  | invalidAddress address sp => s!"address {address} is outside the stack (sp = {sp})"
  | invalidStackOffset offset depth =>
    s!"offset {offset} is below the bottom of a stack of depth {depth}"
  | invalidLink address value => s!"frame link at {address} holds invalid value {value}"
  | staticChainExhausted level base =>
    s!"static chain exhausted walking {level} levels from frame at {base}"
  | invalidProgramCounter pc length =>
    s!"instruction address {pc} is outside the program of {length} instructions"
  | divisionByZero => "division by zero"
  | moduloByZero => "modulo by zero"
  | integerOverflow operation => s!"integer overflow in {operation}"
  | io text => s!"io error: {text}"
  | invalidInput cause => s!"invalid integer input: {cause.message}"
  | stepLimitExceeded limit => s!"step limit of {limit} instructions exceeded"
  | invalidConfig key value => s!"invalid value {Text.quoted value} for {key}"

/-- The text of the failure behind this one. -/
def cause? : Error → Option String
  | invalidInput cause => some cause.message
  | _ => none

end Error

/-- An error of a running machine: the instruction that raised it and the registers it left. -/
structure Fault where
  error : Error
  pc : Nat
  registers : Registers
  deriving DecidableEq

def Fault.message (f : Fault) : String :=
  s!"{f.error.message} at instruction {f.pc} ({f.registers.text})"

section

variable {ε α β : Type} {x : Except ε α} {f : α → Except ε β} {b : β} {e : ε}

theorem bind_eq_ok : (x >>= f) = .ok b ↔ ∃ a, x = .ok a ∧ f a = .ok b := by
  constructor
  · intro h
    cases x with
    | error e => cases h
    | ok a => exact ⟨a, rfl, h⟩
  · rintro ⟨a, rfl, h⟩
    exact h

theorem bind_eq_error : (x >>= f) = .error e ↔ x = .error e ∨ ∃ a, x = .ok a ∧ f a = .error e := by
  constructor
  · intro h
    cases x with
    | error e' =>
      obtain rfl := Except.error.inj h
      exact .inl rfl
    | ok a => exact .inr ⟨a, rfl, h⟩
  · rintro (rfl | ⟨a, rfl, h⟩)
    · rfl
    · exact h

end

end PCode
