import PCode.Error
/-!
The bounded stack. Cells are addressed from the bottom, every access is checked, and reserved cells
at the bottom can be read and written but not removed. An operation that fails hands back a stack
as well: it was at work on it when it failed.
-/

namespace PCode

structure Stack where
  cells : Array Word
  capacity : Nat
  reserved : Nat
  deriving DecidableEq

namespace Stack

def ofCapacity (capacity : Nat) : Stack := ⟨#[], capacity, 0⟩

/-- Reserved cells start as zero, and the capacity is raised to hold them. -/
def withReserved (capacity reserved : Nat) : Stack :=
  ⟨Array.replicate reserved 0, max capacity reserved, reserved⟩

def depth (s : Stack) : Nat := s.cells.size

def sp (s : Stack) : Int := s.depth - 1

@[inline]
def ensureRoom (s : Stack) (count : Nat) : Except Error Unit :=
  if s.depth + count ≤ s.capacity then .ok () else .error (.stackOverflow s.capacity)

@[inline]
def push (s : Stack) (w : Word) : EStateM.Result Error Stack Unit :=
  match s.ensureRoom 1 with
  | .ok () => .ok () { s with cells := s.cells.push w }
  | .error e => .error e s

@[inline]
def pop (s : Stack) : EStateM.Result Error Stack Word :=
  if s.depth ≤ s.reserved then .error .stackUnderflow s
  else
    match s.cells.back? with
    | some w => .ok w { s with cells := s.cells.pop }
    | none => .error .stackUnderflow { s with cells := s.cells.pop }

def peek (s : Stack) (offset : Nat) : Except Error Word :=
  if h : offset < s.cells.size then .ok s.cells[s.cells.size - 1 - offset]
  else .error (.invalidStackOffset offset s.depth)

@[inline]
def read (s : Stack) (address : Nat) : Except Error Word :=
  if h : address < s.cells.size then .ok s.cells[address]
  else .error (.invalidAddress address s.sp)

@[inline]
def write (s : Stack) (address : Nat) (w : Word) : EStateM.Result Error Stack Unit :=
  if h : address < s.cells.size then .ok () { s with cells := s.cells.set address w }
  else .error (.invalidAddress address s.sp) s

@[inline]
def grow (s : Stack) (amount : Nat) : EStateM.Result Error Stack Unit :=
  match s.ensureRoom amount with
  | .ok () => .ok () { s with cells := s.cells ++ Array.replicate amount 0 }
  | .error e => .error e s

/-- Keeps the cells below `length`, and the reserved ones. -/
def truncate (s : Stack) (length : Nat) : Stack :=
  { s with cells := s.cells.take (max length s.reserved) }

theorem ensureRoom_eq_ok_iff {s : Stack} {count : Nat} :
    s.ensureRoom count = .ok () ↔ s.depth + count ≤ s.capacity := by
  simp [ensureRoom]

theorem ensureRoom_eq_error_iff {s : Stack} {count : Nat} {e : Error} :
    s.ensureRoom count = .error e ↔
      s.capacity < s.depth + count ∧ e = .stackOverflow s.capacity := by
  unfold ensureRoom
  split <;> simp <;> grind

theorem push_eq_ok_iff {s t : Stack} {w : Word} {u : Unit} :
    s.push w = .ok u t ↔ s.depth < s.capacity ∧ t = { s with cells := s.cells.push w } := by
  simp only [push, ensureRoom]
  split <;> simp_all <;> grind

theorem push_eq_error_iff {s t : Stack} {w : Word} {e : Error} :
    s.push w = .error e t ↔ s.capacity ≤ s.depth ∧ e = .stackOverflow s.capacity ∧ t = s := by
  simp only [push, ensureRoom]
  split <;> grind

theorem pop_eq_ok_iff {s t : Stack} {w : Word} :
    s.pop = .ok w t ↔
      s.reserved < s.depth ∧ s.cells.back? = some w ∧ t = { s with cells := s.cells.pop } := by
  unfold pop
  split
  · simp; omega
  · split <;> simp_all
    grind

theorem pop_eq_error_iff {s t : Stack} {e : Error} :
    s.pop = .error e t ↔ s.depth ≤ s.reserved ∧ e = .stackUnderflow ∧ t = s := by
  unfold pop depth
  split
  · grind
  · next h =>
    have hs : s.cells.size ≠ 0 := by omega
    split <;> grind

theorem peek_eq_ok_iff {s : Stack} {offset : Nat} {w : Word} :
    s.peek offset = .ok w ↔ offset < s.depth ∧ s.cells[s.depth - 1 - offset]? = some w := by
  unfold peek depth
  split <;> grind

theorem peek_eq_error_iff {s : Stack} {offset : Nat} {e : Error} :
    s.peek offset = .error e ↔ s.depth ≤ offset ∧ e = .invalidStackOffset offset s.depth := by
  unfold peek depth
  split <;> grind

theorem read_eq_ok_iff {s : Stack} {address : Nat} {w : Word} :
    s.read address = .ok w ↔ s.cells[address]? = some w := by
  unfold read
  split <;> simp_all

theorem read_eq_error_iff {s : Stack} {address : Nat} {e : Error} :
    s.read address = .error e ↔ s.depth ≤ address ∧ e = .invalidAddress address s.sp := by
  unfold read depth
  split <;> grind

theorem write_eq_ok_iff {s t : Stack} {address : Nat} {w : Word} {u : Unit} :
    s.write address w = .ok u t ↔
      address < s.depth ∧ t = { s with cells := s.cells.setIfInBounds address w } := by
  unfold write depth
  split <;> simp_all [Array.setIfInBounds]
  all_goals grind

theorem write_eq_error_iff {s t : Stack} {address : Nat} {w : Word} {e : Error} :
    s.write address w = .error e t ↔
      s.depth ≤ address ∧ e = .invalidAddress address s.sp ∧ t = s := by
  unfold write depth
  split <;> grind

theorem grow_eq_ok_iff {s t : Stack} {amount : Nat} {u : Unit} :
    s.grow amount = .ok u t ↔ s.depth + amount ≤ s.capacity ∧
      t = { s with cells := s.cells ++ Array.replicate amount 0 } := by
  simp only [grow, ensureRoom]
  split <;> simp_all <;> grind

theorem grow_eq_error_iff {s t : Stack} {amount : Nat} {e : Error} :
    s.grow amount = .error e t ↔
      s.capacity < s.depth + amount ∧ e = .stackOverflow s.capacity ∧ t = s := by
  simp only [grow, ensureRoom]
  split <;> grind

theorem depth_truncate (s : Stack) (length : Nat) :
    (s.truncate length).depth = min s.depth (max length s.reserved) := by
  simp [truncate, depth]
  omega

end Stack
end PCode
