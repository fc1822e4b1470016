import PCode.Arithmetic
import PCode.Machine.Core
/-!
What each instruction does to the core, and what it asks of the channel. The counter already points
past the instruction.
-/

namespace PCode

inductive HaltReason where
  | halt | returnFromMain
  deriving DecidableEq

def HaltReason.text : HaltReason → String
  | halt => "halt"
  | returnFromMain => "return from main"

/-- What is left to do once the core has done its part. -/
inductive Request where
  | proceed
  | halt (reason : HaltReason)
  | emit (value : Word)
  /-- Read a word and push it; there is room for it. -/
  | accept
  deriving DecidableEq

namespace Core

/-- Pushes the links of a new frame, then enters it. -/
def call (program : Program) (level target : Nat) : Exec Unit := do
  checkTarget program target
  let declaring ← resolve level
  ensureRoom Frame.headerSize
  let ⟨next, caller, _⟩ ← get
  push (Word.ofIndex caller)
  push (Word.ofIndex declaring)
  push (Word.ofIndex next)
  modify fun c => { c with pc := target, base := c.stack.depth - Frame.headerSize }

/-- All three links must be sound. Returning from the global frame ends the run. -/
def ret : Exec Request := do
  let frame := (← get).base
  if frame = Frame.globalBase then
    return .halt .returnFromMain
  else
    let caller ← link frame Frame.dynamicLink
    let _ ← link frame Frame.staticLink
    let next ← link frame Frame.returnAddress
    modify fun c => { pc := next, base := caller, stack := c.stack.truncate frame }
    return .proceed

def operate : Operation → Exec Request
  | .ret => ret
  | .unary op => do
    let x ← pop
    push (← ask fun _ => op.eval x)
    return .proceed
  | .binary op => do
    let y ← pop
    let x ← pop
    push (← ask fun _ => op.eval x y)
    return .proceed

def provide : Service → Exec Request
  | .write => do
    let w ← pop
    return .emit w
  | .read => do
    ensureRoom 1
    return .accept
  | .halt => return .halt .halt

def execute (program : Program) : Instruction → Exec Request
  | .lit value => do
    push value
    return .proceed
  | .opr op => operate op
  | .lod level offset => do
    let base ← resolve level
    push (← load (base + offset))
    return .proceed
  | .sto level offset => do
    let w ← pop
    let base ← resolve level
    store (base + offset) w
    return .proceed
  | .cal level target => do
    call program level target
    return .proceed
  | .inc amount => do
    update fun s => s.grow amount
    return .proceed
  | .jmp target => do
    jump program target
    return .proceed
  | .jpc target => do
    let w ← pop
    if w = 0 then jump program target
    return .proceed
  | .sio service => provide service
  | .lda address => do
    push (← load address)
    return .proceed
  | .sta address => do
    let w ← pop
    store address w
    return .proceed

end Core
end PCode
