import PCode.Proofs.Frame.Walk
import PCode.Proofs.Session.Bounds
/-!
Levels beyond the static chain. An instruction that asks for a frame further out than the global one faults, and
it has neither laid a frame nor written a cell.
-/

namespace PCode.Session

open PCode.Frame (globalBase headerSize Outward)

variable {σ : Type} [Channel σ] {s : Session σ} {program : Program} {c : Core} {channel : σ} {t : Stack} {w : Word}
  {level offset target : Nat} {e : Error}

section

attribute [local simp] Core.execute Core.call Core.checkTarget Core.resolve

theorem perform_lod_eq_error (walk : Frame.resolve c.stack c.base level = .error e) :
    perform program (.lod level offset) c channel = (.error e c, channel) := by
  rw [perform_eq_error_iff]
  simp [walk]

theorem perform_cal_eq_error (h : program.checkTarget target = .error e ∨
    program.checkTarget target = .ok () ∧ Frame.resolve c.stack c.base level = .error e) :
    perform program (.cal level target) c channel = (.error e c, channel) := by
  rw [perform_eq_error_iff]
  rcases h with outside | ⟨inside, walk⟩
  · simp [outside]
  · simp [inside, walk]

theorem perform_sto_of_pop_eq_error (few : c.stack.pop = .error e c.stack) :
    perform program (.sto level offset) c channel = (.error e c, channel) := by
  rw [perform_eq_error_iff]
  simp [few]

theorem perform_sto_eq_error (operand : c.stack.pop = .ok w t) (walk : Frame.resolve t c.base level = .error e) :
    perform program (.sto level offset) c channel = (.error e { c with stack := t }, channel) := by
  rw [perform_eq_error_iff]
  simp [operand, walk]

end

/-- A step raises `e`. It has taken `k` cells off the stack, written none and laid no frame. -/
def Refuses (s : Session σ) (k : Nat) (e : Error) : Prop :=
  ∃ fault t, s.step = (.error fault, t) ∧ fault = ⟨e, s.machine.core.pc, t.machine.registers⟩ ∧
    t.machine.core = { s.machine.core.next with stack := s.machine.core.stack.drop k } ∧ t.channel = s.channel

theorem refuses_of_perform {i : Instruction} {k : Nat} (next : s.machine.next? = some i)
    (hp : perform s.machine.program i s.machine.core.next s.channel =
      (.error e { s.machine.core.next with stack := s.machine.core.stack.drop k }, s.channel)) : s.Refuses k e := by
  have hs := (Stepped.failed next hp rfl).step_eq
  exact ⟨_, _, hs, rfl, rfl, rfl⟩

theorem refuses_whole {i : Instruction} (next : s.machine.next? = some i)
    (hp : perform s.machine.program i s.machine.core.next s.channel = (.error e s.machine.core.next, s.channel)) :
    s.Refuses 0 e := by
  apply refuses_of_perform next
  rw [hp, Stack.drop_zero]
  rfl

/-- Static links lead from the current frame to the global one in `j` steps, and every level beyond is refused. -/
structure Catches (s : Session σ) (j : Nat) : Prop where
  found : ∀ level ≤ j, ∃ f, Outward s.machine.core.stack s.machine.core.base level f ∧
    Frame.resolve s.machine.core.stack s.machine.core.base level = .ok f
  lod : ∀ level offset, j < level → s.machine.next? = some (.lod level offset) →
    s.Refuses 0 (.staticChainExhausted level s.machine.core.base)
  cal : ∀ level target, j < level → s.machine.next? = some (.cal level target) →
    s.Refuses 0 (if target < s.machine.program.length then .staticChainExhausted level s.machine.core.base
      else .invalidProgramCounter target s.machine.program.length)
  sto : ∀ level offset, j < level → s.machine.next? = some (.sto level offset) →
    if s.machine.core.stack.depth = headerSize then s.Refuses 0 .stackUnderflow
    else ∃ e, e.kind = .invalidAddress ∧ s.Refuses 1 e

theorem catches_of_reached {settings : Settings} {log : List Execution} {j : Nat}
    (reached : Machine.Reached (fun _ _ _ => True) program settings log s.machine)
    (out : Outward s.machine.core.stack s.machine.core.base j globalBase) : s.Catches j := by
  constructor
  case found =>
    intro level hle
    exact out.resolve_of_le hle
  case lod =>
    intro level offset hlt next
    exact refuses_whole next (perform_lod_eq_error (out.resolve_of_lt hlt))
  case cal =>
    intro level target hlt next
    apply refuses_whole next
    apply perform_cal_eq_error
    split
    next inside => exact .inr ⟨Program.checkTarget_eq_ok_iff.mpr inside, out.resolve_of_lt hlt⟩
    next outside => exact .inl (Program.checkTarget_eq_error_iff.mpr ⟨Nat.le_of_not_lt outside, rfl⟩)
  case sto =>
    intro level offset hlt next
    have reserved := reached.sized.reserved
    have header := reached.sized.header_le
    split
    next few =>
      have hp := Stack.pop_eq_error_iff.mpr ⟨Nat.le_of_eq (few.trans reserved.symm), rfl, rfl⟩
      exact refuses_whole next (perform_sto_of_pop_eq_error hp)
    next more =>
      rcases hp : s.machine.core.stack.pop with ⟨w, t⟩ | ⟨e, t⟩
      · obtain ⟨e, walk, kind⟩ := out.exists_resolve_of_pop hlt hp
        refine ⟨e, kind, ?_⟩
        apply refuses_of_perform next
        rw [← Stack.pop_eq_drop hp]
        exact perform_sto_eq_error hp walk
      · have few := (Stack.pop_eq_error_iff.mp hp).1
        omega

/-- A procedure that has popped its return address, about to pop its static link for a store two levels out. -/
def severed : Session QueueChannel :=
  (scripted (.ofProgram (Program.ofInstructions [.cal 0 1, .jpc 1, .sto 2 0])) []).after 2

theorem catches_severed :
    severed.Catches 1 ∧ severed.machine.next? = some (.sto 2 0) ∧ severed.Refuses 1 (.invalidAddress 4 3) := by
  let program := Program.ofInstructions [.cal 0 1, .jpc 1, .sto 2 0]
  have h₀ : Machine.Reached (fun _ _ _ => True) program {} [] (.ofProgram program) := .built .ofProgram
  have reached := h₀.after (s := scripted (.ofProgram program) []) 2 fun _ _ => trivial
  have out : Outward severed.machine.core.stack severed.machine.core.base 1 globalBase :=
    .out (by decide) rfl .here
  exact ⟨catches_of_reached reached out, rfl, _, _, rfl, rfl, rfl, rfl⟩

end PCode.Session
