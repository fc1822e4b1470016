import PCode.Instruction.Encoding
/-!
Assembly text: operation code, level and address, with the name of a sub-operation in place of its
selector.
-/

namespace PCode

/-- The mnemonic of an operation code. -/
def OpCode.name (v : UInt8) : String :=
  match ofValue? v with
  | some op => op.mnemonic
  | none => "unknown"

def Triple.text (t : Triple) : String := s!"{OpCode.name t.op} {t.level} {t.address}"

def Instruction.text (i : Instruction) : String :=
  match i with
  | .opr op => s!"{i.opcode.mnemonic} 0 {op.mnemonic}"
  | .sio service => s!"{i.opcode.mnemonic} 0 {service.mnemonic}"
  | i => s!"{i.opcode.mnemonic} {i.operands.1} {i.operands.2}"

end PCode
