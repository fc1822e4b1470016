import PCode.Word
/-!
The instruction set. `LIT`, `LOD` and `LDA` push a value, the cell of a frame some levels out, and
the cell at an address; `STO` and `STA` pop into such cells. `INC` reserves cells, `CAL` calls, `JMP`
jumps and `JPC` jumps on a popped zero. `OPR` returns or computes on the top of the stack, `SIO`
writes, reads or halts.
-/

namespace PCode

inductive OpCode where
  | lit | opr | lod | sto | cal | inc | jmp | jpc | sio | lda | sta
  deriving DecidableEq

inductive Unary where
  | negate | odd
  deriving DecidableEq

/-- Operations on two operands, the second of them on top. -/
inductive Binary where
  | plus | minus | times | quotient | remainder
  | eq | ne | lt | le | gt | ge
  deriving DecidableEq

inductive Operation where
  | ret
  | unary (op : Unary)
  | binary (op : Binary)
  deriving DecidableEq

inductive Service where
  | write | read | halt
  deriving DecidableEq

/-- Levels count static links, offsets count from a frame's base, targets index the program. -/
inductive Instruction where
  | lit (value : Word)
  | opr (op : Operation)
  | lod (level offset : Nat)
  | sto (level offset : Nat)
  | cal (level target : Nat)
  | inc (amount : Nat)
  | jmp (target : Nat)
  | jpc (target : Nat)
  | sio (service : Service)
  | lda (address : Nat)
  | sta (address : Nat)
  deriving DecidableEq

namespace OpCode

/-- In order of value. -/
def all : List OpCode := [lit, opr, lod, sto, cal, inc, jmp, jpc, sio, lda, sta]

def mnemonic : OpCode → String
  | lit => "LIT"
  | opr => "OPR"
  | lod => "LOD"
  | sto => "STO"
  | cal => "CAL"
  | inc => "INC"
  | jmp => "JMP"
  | jpc => "JPC"
  | sio => "SIO"
  | lda => "LDA"
  | sta => "STA"

end OpCode

def Unary.mnemonic : Unary → String
  | negate => "INVERT_VALUE"
  | odd => "ODD"

def Binary.mnemonic : Binary → String
  | plus => "PLUS"
  | minus => "MINUS"
  | times => "MUL"
  | quotient => "DIV"
  | remainder => "MOD"
  | eq => "EQ"
  | ne => "NEQ"
  | lt => "LESS"
  | le => "LESS_EQ"
  | gt => "GRT"
  | ge => "GRT_EQ"

namespace Operation

/-- In order of selector. -/
def all : List Operation :=
  [ret, unary .negate, binary .plus, binary .minus, binary .times, binary .quotient, unary .odd,
    binary .remainder, binary .eq, binary .ne, binary .lt, binary .le, binary .gt, binary .ge]

def mnemonic : Operation → String
  | ret => "RET"
  | unary op => op.mnemonic
  | binary op => op.mnemonic

end Operation

namespace Service

def all : List Service := [write, read, halt]

def mnemonic : Service → String
  | write => "WRITE"
  | read => "READ"
  | halt => "HALT"

end Service

namespace Instruction

def opcode : Instruction → OpCode
  | lit _ => .lit
  | opr _ => .opr
  | lod _ _ => .lod
  | sto _ _ => .sto
  | cal _ _ => .cal
  | inc _ => .inc
  | jmp _ => .jmp
  | jpc _ => .jpc
  | sio _ => .sio
  | lda _ => .lda
  | sta _ => .sta

end Instruction
end PCode
