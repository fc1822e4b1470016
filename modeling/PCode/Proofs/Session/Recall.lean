import PCode.Proofs.Frame.Walk
import PCode.Proofs.Session.Operation
/-!
Loads after stores. What a store has put into a cell is what a load of the same operands finds there, unless the
store has bent a link that the load goes along.
-/

namespace PCode

namespace Stack

variable {s t u : Stack} {w : Word} {a : Nat}

theorem load_of_store (room : s.depth ≤ s.capacity) (operand : s.pop = .ok w t) (cell : t.write a w = .ok () u) :
    u.read a = .ok w ∧ u.push w = .ok () (u.withCells (u.cells.push w)) ∧ u.depth + 1 = s.depth := by
  have hp := (depth_pop operand).1
  have hw := depth_write cell
  have hc : u.capacity = s.capacity := (agrees_write cell).capacity.trans (agrees_pop operand).capacity
  refine ⟨?_, ?_, by omega⟩
  · rw [read_eq_ok_iff, cell_write cell, if_pos rfl]
  · exact push_eq_ok_iff.mpr ⟨by omega, rfl⟩

end Stack

/-- The cell `a` holds none of the static links on the way to the frame `level` levels out. -/
def Core.Avoids (c : Core) (level a : Nat) : Prop :=
  ∀ n < level, ∀ f, Frame.resolve c.stack c.base n = .ok f → a ≠ f + Frame.staticLink

namespace Session

open PCode.Frame (Outward)

variable {σ : Type} [Channel σ] {s t : Session σ} {program : Program} {c d : Core} {channel channel' : σ}
  {halt : Option HaltReason} {i : Instruction} {u : Stack} {w : Word} {state : Machine.State} {a level offset : Nat}

/-- If `i` is next, its step pushes `w`, and the stack is then as deep as `n`. -/
def Loads (t : Session σ) (i : Instruction) (w : Word) (n : Nat) : Prop :=
  t.machine.next? = some i → ∃ u, t.step = (.ok .running, u) ∧
    u.machine.core = t.machine.core.next.withCells (t.machine.stack.push w) ∧
    u.machine.core.stack.depth = n ∧ u.channel = t.channel

theorem store_of_performs (h : Performs program (.sto level offset) c channel halt d channel') :
    ∃ w u f, c.stack.pop = .ok w u ∧ Outward u c.base level f ∧ u.write (f + offset) w = .ok () d.stack ∧
      d.base = c.base := by
  cases h with
  | sto operand walk cell => exact ⟨_, _, _, operand, Frame.resolve_eq_ok_iff.mp walk, cell, rfl⟩

theorem store_at_of_performs (h : Performs program (.sta a) c channel halt d channel') :
    ∃ w u, c.stack.pop = .ok w u ∧ u.write a w = .ok () d.stack := by
  cases h with
  | sta operand cell => exact ⟨_, _, operand, cell⟩

theorem loads_of_write (room : s.machine.core.stack.depth ≤ s.machine.core.stack.capacity)
    (operand : s.machine.core.stack.pop = .ok w u) (cell : u.write a w = .ok () t.machine.core.stack)
    (load : ∀ v, t.machine.core.stack.read a = .ok w → t.machine.core.stack.push w = .ok () v →
      Performs t.machine.program i t.machine.core.next t.channel none { t.machine.core.next with stack := v } t.channel) :
    t.Loads i w s.machine.core.stack.depth := by
  intro next
  obtain ⟨hr, hp, hd⟩ := Stack.load_of_store room operand cell
  have hs := (Stepped.proceeded next (load _ hr hp)).step_eq
  refine ⟨_, hs, rfl, ?_, rfl⟩
  rw [← hd]
  exact Stack.depth_push hp

/-- A load right after the store of the same operands finds what has been stored. -/
structure Recalls (s : Session σ) : Prop where
  sto : ∀ level offset state t, s.machine.next? = some (.sto level offset) → s.step = (.ok state, t) →
    ∃ f w, Frame.resolve s.machine.core.stack s.machine.core.base level = .ok f ∧
      s.machine.core.store? (.sto level offset) = some (f + offset, w) ∧
      (s.machine.core.Avoids level (f + offset) → t.Loads (.lod level offset) w s.machine.core.stack.depth)
  own : ∀ offset state t, s.machine.next? = some (.sto 0 offset) → s.step = (.ok state, t) →
    ∃ w, s.machine.core.store? (.sto 0 offset) = some (s.machine.core.base + offset, w) ∧
      t.Loads (.lod 0 offset) w s.machine.core.stack.depth
  sta : ∀ address state t, s.machine.next? = some (.sta address) → s.step = (.ok state, t) →
    ∃ w, s.machine.core.store? (.sta address) = some (address, w) ∧
      t.Loads (.lda address) w s.machine.core.stack.depth

theorem recalls_sto (room : s.machine.core.stack.depth ≤ s.machine.core.stack.capacity)
    (next : s.machine.next? = some (.sto level offset)) (step : s.step = (.ok state, t)) :
    ∃ f w, Frame.resolve s.machine.core.stack s.machine.core.base level = .ok f ∧
      s.machine.core.store? (.sto level offset) = some (f + offset, w) ∧
      (s.machine.core.Avoids level (f + offset) → t.Loads (.lod level offset) w s.machine.core.stack.depth) := by
  obtain ⟨halt, performs⟩ := (stepped_of_step step).performs next
  obtain ⟨w, u, f, operand, out, cell, base⟩ := store_of_performs performs
  have walk := Frame.resolve_eq_ok_iff.mpr out
  refine ⟨f, w, Frame.resolve_eq_ok_iff.mpr (out.of_pop operand), Core.store?_sto operand walk, ?_⟩
  intro avoids
  apply loads_of_write room operand cell
  intro v hr hp
  have out' : Outward t.machine.core.stack t.machine.core.base level f := by
    rw [base]
    apply out.of_write cell
    intro n hn g hg
    exact avoids n hn g (Frame.resolve_eq_ok_iff.mpr (hg.of_pop operand))
  exact .lod (Frame.resolve_eq_ok_iff.mpr out') hr hp

theorem recalls_of_reached {settings : Settings} {log : List Execution}
    (reached : Machine.Reached (fun _ _ _ => True) program settings log s.machine) : s.Recalls := by
  have room := reached.sized.bounded.capacity
  constructor
  case sto =>
    intro level offset state t next step
    exact recalls_sto room next step
  case own =>
    intro offset state t next step
    obtain ⟨f, w, walk, store, loads⟩ := recalls_sto room next step
    obtain rfl := Except.ok.inj walk
    exact ⟨w, store, loads nofun⟩
  case sta =>
    intro address state t next step
    obtain ⟨halt, performs⟩ := (stepped_of_step step).performs next
    obtain ⟨w, u, operand, cell⟩ := store_at_of_performs performs
    refine ⟨w, Core.store?_sta operand, ?_⟩
    apply loads_of_write room operand cell
    intro v hr hp
    exact .lda hr hp

/-- A procedure about to store 7 into the second cell of the frame that declares it. -/
def recalling : Session QueueChannel :=
  (scripted (.ofProgram (Program.ofInstructions [.cal 0 1, .lit 7, .sto 1 1, .lod 1 1])) []).after 2

theorem recalls_recalling :
    recalling.machine.core.Avoids 1 1 ∧ ∃ u, recalling.step.2.step = (.ok .running, u) ∧
      u.machine.stack = #[0, 7, 0, 0, 0, 1, 7] ∧ u.machine.stack.size = recalling.machine.stack.size := by
  let program := Program.ofInstructions [.cal 0 1, .lit 7, .sto 1 1, .lod 1 1]
  have h₀ : Machine.Reached (fun _ _ _ => True) program {} [] (.ofProgram program) := .built .ofProgram
  have reached := h₀.after (s := scripted (.ofProgram program) []) 2 fun _ _ => trivial
  have h : recalling.Recalls := recalls_of_reached reached
  obtain ⟨f, w, walk, store, loads⟩ := h.sto 1 1 .running recalling.step.2 rfl rfl
  obtain rfl : 0 = f := Except.ok.inj walk
  obtain rfl : 7 = w := (Prod.mk.inj (Option.some.inj store)).2
  have avoids : recalling.machine.core.Avoids 1 1 := by
    intro n hn g hg
    obtain rfl := Nat.lt_one_iff.mp hn
    obtain rfl : 3 = g := Except.ok.inj hg
    decide
  obtain ⟨u, hs, hc, hd, -⟩ := loads avoids rfl
  refine ⟨avoids, u, hs, ?_, hd⟩
  rw [Machine.stack, hc]
  rfl

/-- A store into the static link sends the load out to another frame. -/
example :
    let s := scripted (.ofProgram (Program.ofInstructions [.cal 0 1, .lit 9, .sto 1 4, .lod 1 4])) []
    (s.after 3).step.1 = .error ⟨.invalidAddress 13 5, 3, ⟨4, 3, 5⟩⟩ := rfl

end Session
end PCode
