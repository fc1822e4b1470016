import PCode.Frame
import PCode.Program
/-!
The part of a machine that instructions act on, and the steps they are made of. A step that fails
leaves what the steps before it did.
-/

namespace PCode

structure Core where
  pc : Nat
  base : Nat
  stack : Stack
  deriving DecidableEq

abbrev Exec := EStateM Error Core

namespace Core

def registers (c : Core) : Registers := ⟨c.pc, c.base, c.stack.sp⟩

/-- A question about the core, which stays as it is. -/
@[inline]
def ask (f : Core → Except Error α) : Exec α := fun c =>
  match f c with
  | .ok a => .ok a c
  | .error e => .error e c

/-- An operation on the stack. The core has the stack that it leaves, also if it fails. -/
@[inline]
def update (f : Stack → EStateM.Result Error Stack α) : Exec α := fun ⟨pc, base, stack⟩ =>
  match f stack with
  | .ok a stack => .ok a ⟨pc, base, stack⟩
  | .error e stack => .error e ⟨pc, base, stack⟩

def push (w : Word) : Exec Unit := update fun s => s.push w

def store (address : Nat) (w : Word) : Exec Unit := update fun s => s.write address w

@[inline]
def pop : Exec Word := update Stack.pop

def load (address : Nat) : Exec Word := ask fun c => c.stack.read address

def resolve (level : Nat) : Exec Nat := ask fun c => Frame.resolve c.stack c.base level

def link (base slot : Nat) : Exec Nat := ask fun c => Frame.link c.stack base slot

def ensureRoom (count : Nat) : Exec Unit := ask fun c => c.stack.ensureRoom count

def checkTarget (program : Program) (target : Nat) : Exec Unit :=
  ask fun _ => program.checkTarget target

def jump (program : Program) (target : Nat) : Exec Unit := do
  checkTarget program target
  modify fun c => { c with pc := target }

end Core
end PCode
