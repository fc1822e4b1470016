import PCode.Instruction.Basic
import PCode.Text.Padding
/-!
How often each operation code was executed.
-/

namespace PCode

/-- The place of an operation code in `OpCode.all`. -/
def OpCode.position : OpCode → Fin 11
  | lit => 0
  | opr => 1
  | lod => 2
  | sto => 3
  | cal => 4
  | inc => 5
  | jmp => 6
  | jpc => 7
  | sio => 8
  | lda => 9
  | sta => 10

theorem OpCode.all_position (op : OpCode) : OpCode.all[op.position.val]? = some op := by
  cases op <;> rfl

theorem OpCode.position_inj {op op' : OpCode} (h : op.position = op'.position) : op = op' := by
  have hp := op.all_position
  rw [h, op'.all_position] at hp
  exact (Option.some.inj hp).symm

structure Profile where
  counts : Vector Nat 11
  deriving DecidableEq

namespace Profile

def empty : Profile := ⟨Vector.replicate 11 0⟩

def count (p : Profile) (op : OpCode) : Nat := p.counts[op.position]

def record (p : Profile) (op : OpCode) : Profile :=
  ⟨p.counts.set op.position (p.count op + 1)⟩

def toList (p : Profile) : List (OpCode × Nat) := OpCode.all.map fun op => (op, p.count op)

def total (p : Profile) : Nat := (p.toList.map Prod.snd).foldr (· + ·) 0

theorem count_empty (op : OpCode) : empty.count op = 0 := by
  cases op <;> rfl

theorem total_empty : empty.total = 0 := by
  simp [total, toList, OpCode.all, count_empty]

theorem count_record (p : Profile) (op op' : OpCode) :
    (p.record op).count op' = if op = op' then p.count op' + 1 else p.count op' := by
  by_cases h : op = op'
  · subst h
    simp [record, count]
  · have hp : op.position ≠ op'.position := fun hp => h (OpCode.position_inj hp)
    simp [record, count, h, Vector.getElem_set_ne, Fin.val_ne_of_ne hp]

theorem total_record (p : Profile) (op : OpCode) : (p.record op).total = p.total + 1 := by
  cases op <;> simp [total, toList, OpCode.all, count_record] <;> omega

def row (name : String) (n : Nat) : String :=
  Text.padRight 4 name ++ Text.padLeft 10 (toString n)

/-- The codes that were executed, then the total. -/
def text (p : Profile) : String :=
  let executed := p.toList.filter fun entry => 0 < entry.2
  "\n".intercalate (executed.map (fun entry => row entry.1.mnemonic entry.2) ++ [row "all" p.total])

end Profile
end PCode
