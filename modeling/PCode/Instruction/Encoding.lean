import PCode.Error
import PCode.Instruction.Basic
/-!
The stored form of an instruction: a triple of operation code, level and address. Decoding checks
the code, then the operands that the code uses, the level before the address; it drops the level
where the code has no use for it. Encoding writes an unused level as zero and an operand beyond the
words as the greatest word. The value 7 is no operation code.
-/

namespace PCode

/-- An instruction as stored. `address` holds a value, an amount, a selector or an address. -/
structure Triple where
  op : UInt8
  level : Word
  address : Word
  deriving DecidableEq

namespace OpCode

def value : OpCode → UInt8
  | lit => 1
  | opr => 2
  | lod => 3
  | sto => 4
  | cal => 5
  | inc => 6
  | jmp => 8
  | jpc => 9
  | sio => 10
  | lda => 11
  | sta => 12

def ofValue? (v : UInt8) : Option OpCode := all.find? fun op => op.value == v

theorem ofValue?_eq_some_iff {v : UInt8} {op : OpCode} : ofValue? v = some op ↔ op.value = v := by
  constructor
  · intro h
    simpa using List.find?_some h
  · rintro rfl
    cases op <;> rfl

def decode (v : UInt8) : Except Error OpCode :=
  match ofValue? v with
  | some op => .ok op
  | none => .error (.invalidOpcode v)

end OpCode

namespace Operation

def selector : Operation → Word
  | ret => 0
  | unary .negate => 1
  | binary .plus => 2
  | binary .minus => 3
  | binary .times => 4
  | binary .quotient => 5
  | unary .odd => 6
  | binary .remainder => 7
  | binary .eq => 8
  | binary .ne => 9
  | binary .lt => 10
  | binary .le => 11
  | binary .gt => 12
  | binary .ge => 13

def ofSelector? (w : Word) : Option Operation := all.find? fun op => op.selector == w

theorem ofSelector?_eq_some_iff {w : Word} {op : Operation} :
    ofSelector? w = some op ↔ op.selector = w := by
  constructor
  · intro h
    simpa using List.find?_some h
  · rintro rfl
    rcases op with _ | op | op <;> try cases op
    all_goals decide

def decode (w : Word) : Except Error Operation :=
  match ofSelector? w with
  | some op => .ok op
  | none => .error (.invalidSubOperation OpCode.opr.mnemonic w)

end Operation

namespace Service

def selector : Service → Word
  | write => 1
  | read => 2
  | halt => 3

def ofSelector? (w : Word) : Option Service := all.find? fun s => s.selector == w

theorem ofSelector?_eq_some_iff {w : Word} {s : Service} :
    ofSelector? w = some s ↔ s.selector = w := by
  constructor
  · intro h
    simpa using List.find?_some h
  · rintro rfl
    cases s <;> decide

def decode (w : Word) : Except Error Service :=
  match ofSelector? w with
  | some s => .ok s
  | none => .error (.invalidSubOperation OpCode.sio.mnemonic w)

end Service

namespace Triple

def index (op : OpCode) (field : String) (w : Word) : Except Error Nat :=
  match Word.toIndex? w with
  | some n => .ok n
  | none => .error (.invalidOperand op.mnemonic field w)

/-- An operand pair, the level checked first. -/
def indices (t : Triple) (op : OpCode) (make : Nat → Nat → Instruction) :
    Except Error Instruction := do
  let level ← index op "level" t.level
  let address ← index op "address" t.address
  return make level address

def decode (t : Triple) : Except Error Instruction := do
  let op ← OpCode.decode t.op
  match op with
  | .lit => return .lit t.address
  | .opr => return .opr (← Operation.decode t.address)
  | .lod => t.indices op .lod
  | .sto => t.indices op .sto
  | .cal => t.indices op .cal
  | .inc => return .inc (← index op "address" t.address)
  | .jmp => return .jmp (← index op "address" t.address)
  | .jpc => return .jpc (← index op "address" t.address)
  | .sio => return .sio (← Service.decode t.address)
  | .lda => return .lda (← index op "address" t.address)
  | .sta => return .sta (← index op "address" t.address)

end Triple

namespace Instruction

def operands : Instruction → Word × Word
  | lit value => (0, value)
  | opr op => (0, op.selector)
  | lod level offset => (Word.saturating level, Word.saturating offset)
  | sto level offset => (Word.saturating level, Word.saturating offset)
  | cal level target => (Word.saturating level, Word.saturating target)
  | inc amount => (0, Word.saturating amount)
  | jmp target => (0, Word.saturating target)
  | jpc target => (0, Word.saturating target)
  | sio service => (0, service.selector)
  | lda address => (0, Word.saturating address)
  | sta address => (0, Word.saturating address)

def encode (i : Instruction) : Triple := ⟨i.opcode.value, i.operands.1, i.operands.2⟩

end Instruction
end PCode
