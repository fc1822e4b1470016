/-!
The registers of the machine, as they are shown.
-/

namespace PCode

/-- `pc` is the index of the next instruction, `base` the address of the current frame, `sp` the
address of the top cell, or `-1` for an empty stack. -/
structure Registers where
  pc : Nat
  base : Nat
  sp : Int
  deriving DecidableEq

def Registers.text (r : Registers) : String := s!"pc={r.pc} b={r.base} sp={r.sp}"

end PCode
