import PCode.Stack
/-!
Activation records. The first three cells of a frame link it to its caller's frame, to the frame of
the procedure that declares it, and to the instruction after the call.
-/

namespace PCode.Frame

def headerSize : Nat := 3

def globalBase : Nat := 0

def dynamicLink : Nat := 0

def staticLink : Nat := 1

def returnAddress : Nat := 2

def link (s : Stack) (base slot : Nat) : Except Error Nat := do
  let w ← s.read (base + slot)
  match Word.toIndex? w with
  | some n => return n
  | none => throw (.invalidLink (base + slot) w)

/-- The frame `level` static links out of the one at `base`. No link leaves the global frame. -/
def climb (s : Stack) (exhausted : Error) : Nat → Nat → Except Error Nat
  | 0, base => .ok base
  | level + 1, base =>
    if base = globalBase then .error exhausted
    else do
      let next ← link s base staticLink
      climb s exhausted level next

def resolve (s : Stack) (base level : Nat) : Except Error Nat :=
  climb s (.staticChainExhausted level base) level base

/-- The dynamic link of a frame, if it leads down the stack. -/
def caller? (cells : Array Word) (base : Nat) : Option Nat :=
  match cells[base]?.bind Word.toIndex? with
  | some next => if next < base then some next else none
  | none => none

theorem caller?_lt {cells : Array Word} {base next : Nat} (h : caller? cells base = some next) :
    next < base := by
  unfold caller? at h
  split at h
  · split at h
    · next hlt => exact Option.some.inj h ▸ hlt
    · cases h
  · cases h

/-- The bases of the live frames from the innermost, as far as the dynamic links lead down. -/
def chain (cells : Array Word) (base : Nat) : List Nat :=
  base :: match _h : caller? cells base with
    | some next => chain cells next
    | none => []
termination_by base
decreasing_by exact caller?_lt _h

end PCode.Frame
