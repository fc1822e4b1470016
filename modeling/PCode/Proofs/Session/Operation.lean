import PCode.Proofs.Execution.Arithmetic
import PCode.Proofs.Session.Bounds
/-!
The operations at work. A step of a unary or a binary operation takes its operands off the stack, the
second of them on top, and pushes what the operation computes or fails with it.
-/

namespace PCode

namespace Stack

variable {s : Stack} {below : Array Word} {w : Word}

def withCells (s : Stack) (cells : Array Word) : Stack := { s with cells }

theorem pop_of_cells (h : s.cells = below.push w) (hr : s.reserved ≤ below.size) :
    s.pop = .ok w (s.withCells below) := by
  refine pop_eq_ok_iff.mpr ⟨?_, ?_, ?_⟩
  · simp only [depth, h, Array.size_push]
    omega
  · rw [h, Array.back?_push]
  · simp only [withCells, h, Array.pop_push]

theorem push_withCells (z : Word) (h : below.size < s.capacity) :
    (s.withCells below).push z = .ok () (s.withCells (below.push z)) :=
  push_eq_ok_iff.mpr ⟨h, rfl⟩

end Stack

def Core.withCells (c : Core) (cells : Array Word) : Core := { c with stack := c.stack.withCells cells }

namespace Session

variable {σ : Type} [Channel σ] {s : Session σ} {program : Program} {c : Core} {channel : σ} {t u : Stack}
  {x y : Word} {e : Error} {i : Instruction} {below : Array Word} {r : Except Error Word}

/-- A step takes the operands above `below` off the stack and pushes `r`, or fails with it. -/
structure Replaces (s : Session σ) (below : Array Word) (r : Except Error Word) : Prop where
  ok : ∀ z, r = .ok z → ∃ t, s.step = (.ok .running, t) ∧
    t.machine.core = s.machine.core.next.withCells (below.push z) ∧ t.channel = s.channel
  error : ∀ e, r = .error e → ∃ fault t, s.step = (.error fault, t) ∧
    fault = ⟨e, s.machine.core.pc, t.machine.registers⟩ ∧
    t.machine.core = s.machine.core.next.withCells below ∧ t.channel = s.channel

/-- A step of an operation answers with what it computes from the operands above the global frame, and
that is exact. -/
structure Computes (s : Session σ) : Prop where
  unary : ∀ op below x, s.machine.next? = some (.opr (.unary op)) → s.machine.stack = below.push x →
    Frame.headerSize ≤ below.size → s.Replaces below (op.eval x)
  binary : ∀ op below x y, s.machine.next? = some (.opr (.binary op)) →
    s.machine.stack = (below.push x).push y → Frame.headerSize ≤ below.size →
    s.Replaces below (op.eval x y)
  arithmetic : ∀ x y, Arithmetic x y

section

attribute [local simp] Core.execute Core.operate Core.push

theorem perform_unary_eq_error {op : Unary} (operand : c.stack.pop = .ok x t) (value : op.eval x = .error e) :
    perform program (.opr (.unary op)) c channel = (.error e { c with stack := t }, channel) := by
  rw [perform_eq_error_iff]
  simp [operand, value]

theorem perform_binary_eq_error {op : Binary} (right : c.stack.pop = .ok y t)
    (left : t.pop = .ok x u) (value : op.eval x y = .error e) :
    perform program (.opr (.binary op)) c channel = (.error e { c with stack := u }, channel) := by
  rw [perform_eq_error_iff]
  simp [right, left, value]

end

theorem replaces_of_perform (next : s.machine.next? = some i)
    (ok : ∀ z, r = .ok z → Performs s.machine.program i s.machine.core.next s.channel none
      (s.machine.core.next.withCells (below.push z)) s.channel)
    (error : ∀ e, r = .error e → perform s.machine.program i s.machine.core.next s.channel =
      (.error e (s.machine.core.next.withCells below), s.channel)) : s.Replaces below r := by
  constructor
  case ok =>
    intro z hz
    have hs := (Stepped.proceeded next (ok z hz)).step_eq
    exact ⟨_, hs, rfl, rfl⟩
  case error =>
    intro e he
    have hs := (Stepped.failed next (error e he) rfl).step_eq
    exact ⟨_, _, hs, rfl, rfl, rfl⟩

theorem replaces_unary {op : Unary} (next : s.machine.next? = some (.opr (.unary op)))
    (cells : s.machine.stack = below.push x) (reserved : s.machine.core.stack.reserved ≤ below.size)
    (room : below.size < s.machine.core.stack.capacity) : s.Replaces below (op.eval x) := by
  have operand := Stack.pop_of_cells cells reserved
  apply replaces_of_perform next
  · intro z hz
    exact .unary operand hz (Stack.push_withCells z room)
  · intro e he
    exact perform_unary_eq_error operand he

theorem replaces_binary {op : Binary} (next : s.machine.next? = some (.opr (.binary op)))
    (cells : s.machine.stack = (below.push x).push y)
    (reserved : s.machine.core.stack.reserved ≤ below.size)
    (room : below.size < s.machine.core.stack.capacity) : s.Replaces below (op.eval x y) := by
  have right := Stack.pop_of_cells cells (by rw [Array.size_push]; omega)
  have left := Stack.pop_of_cells (s := s.machine.core.stack.withCells (below.push x)) rfl reserved
  apply replaces_of_perform next
  · intro z hz
    exact .binary right left hz (Stack.push_withCells z room)
  · intro e he
    exact perform_binary_eq_error right left he

theorem computes_of_reached {settings : Settings} {log : List Execution}
    (reached : Machine.Reached (fun _ _ _ => True) program settings log s.machine) : s.Computes := by
  have reserved := reached.sized.reserved
  have capacity : s.machine.stack.size ≤ s.machine.core.stack.capacity := reached.sized.bounded.capacity
  constructor
  case unary =>
    intro op below x next cells header
    rw [cells, Array.size_push] at capacity
    exact replaces_unary next cells (reserved ▸ header) (by omega)
  case binary =>
    intro op below x y next cells header
    rw [cells, Array.size_push, Array.size_push] at capacity
    exact replaces_binary next cells (reserved ▸ header) (by omega)
  case arithmetic => exact arithmetic

def overflowing : Session QueueChannel :=
  let program := Program.ofInstructions [.lit Int64.minValue, .lit (-1), .opr (.binary .quotient)]
  (scripted (.ofProgram program) []).after 2

theorem computes_overflowing :
    ∃ fault t, overflowing.step = (.error fault, t) ∧ fault.error = .integerOverflow "DIV" ∧
      fault.pc = 2 ∧ t.machine.stack = #[0, 0, 0] := by
  let program := Program.ofInstructions [.lit Int64.minValue, .lit (-1), .opr (.binary .quotient)]
  have h₀ : Machine.Reached (fun _ _ _ => True) program {} [] (.ofProgram program) := .built .ofProgram
  have h := computes_of_reached (s := overflowing)
    (h₀.after (s := scripted (.ofProgram program) []) 2 fun _ _ => trivial)
  have value := (h.arithmetic Int64.minValue (-1)).quotient.overflow.mpr (by decide)
  have step := h.binary .quotient #[0, 0, 0] Int64.minValue (-1) rfl rfl (by decide)
  obtain ⟨fault, t, hs, rfl, hc, -⟩ := step.error _ value
  refine ⟨_, t, hs, rfl, rfl, ?_⟩
  rw [Machine.stack, hc]
  rfl

end Session
end PCode
