import PCode.Proofs.Execution.Moves
import PCode.Proofs.Session.History
/-!
The bounds of a reached machine: the program and the settings it was made with, a stack that keeps
its reserved cells and its capacity, and a base that a word can hold.
-/

namespace PCode

namespace Machine

/-- What memory guarantees: no vector of a machine is so long that an index into it has no word. -/
structure Addressable (m : Machine) : Prop where
  program : m.program.length < Word.indexCount
  stack : m.core.stack.depth < Word.indexCount

end Machine

namespace Session

variable {σ : Type} [Channel σ] {s t : Session σ} {r : Except Fault Machine.State}

theorem Stepped.core (h : Stepped s r t) (hs : s.machine.core.stack.Bounded) :
    (s.machine.next? = none ∧ (t.machine.core = s.machine.core ∨
      s.machine.core.pc < s.machine.program.length ∧ t.machine.core = s.machine.core.next)) ∨
    ∃ i, s.machine.next? = some i ∧ Core.Moves s.machine.program s.machine.core.next i t.machine.core := by
  have hn : s.machine.core.next.stack.Bounded := hs
  cases h with
  | halted halted =>
    have hnone := Machine.next?_eq_none_of_not_live (Machine.not_live_of_halted halted)
    exact .inl ⟨hnone, .inl rfl⟩
  | faulted faulted held =>
    have hnone := Machine.next?_eq_none_of_not_live (Machine.not_live_of_faulted faulted held)
    exact .inl ⟨hnone, .inl rfl⟩
  | unfetched _ fetch =>
    have hnone := Machine.next?_eq_none_of_fetch fetch
    -- A triple that is found moves the counter on, even if it does not decode.
    rcases Machine.fetch_eq_error_iff.mp fetch with ⟨-, rfl⟩ | ⟨-, -, rfl⟩ | ⟨-, ⟨t, ht, -⟩, rfl⟩
    · exact .inl ⟨hnone, .inl rfl⟩
    · exact .inl ⟨hnone, .inl rfl⟩
    · exact .inl ⟨hnone, .inr ⟨Program.lt_length_of_get? ht, rfl⟩⟩
  | proceeded next performs => exact .inr ⟨_, next, moves_of_performs hn performs⟩
  | stopped next performs => exact .inr ⟨_, next, moves_of_performs hn performs⟩
  | failed next performs => exact .inr ⟨_, next, moves_of_perform_error hn performs⟩

end Session

namespace Machine

theorem Executes.moves {m m' : Machine} {i : Instruction} (h : m.Executes i m')
    (hb : m.core.stack.Bounded) : Core.Moves m.program m.core.next i m'.core := by
  obtain ⟨σ, _, channel, channel', halt, performs⟩ := h.performs
  have hn : m.core.next.stack.Bounded := hb
  exact Session.moves_of_performs hn performs

theorem Executes.bounded {m m' : Machine} {i : Instruction} (h : m.Executes i m')
    (hb : m.core.stack.Bounded) : m'.core.stack.Bounded := by
  have hn : m.core.next.stack.Bounded := hb
  exact (h.moves hb).bounded hn

theorem Executes.enters {m m' : Machine} {level target : Nat} (h : m.Executes (.cal level target) m') :
    ∃ declaring, Frame.resolve m.core.stack m.core.base level = .ok declaring ∧ m'.core =
      ⟨target, m.core.stack.depth, m.core.stack.enter m.core.base declaring (m.core.pc + 1)⟩ := by
  obtain ⟨_, _, _, _, _, performs⟩ := h.performs
  generalize m'.core = d, hc : m.core.next = c at performs
  cases performs with
  | cal _ walk _ dynamic static address =>
    cases hc
    obtain rfl := Stack.eq_enter_of_push dynamic static address
    exact ⟨_, walk, rfl⟩

structure Sized (program : Program) (settings : Settings) (m : Machine) : Prop where
  program : m.program = program
  settings : m.settings = settings
  reserved : m.core.stack.reserved = Frame.headerSize
  bounded : m.core.stack.Bounded

variable {P : Guard} {program : Program} {settings : Settings} {log : List Execution}
  {m : Machine}

theorem sized_fresh (program : Program) (settings : Settings) :
    (fresh program settings).Sized program settings where
  program := rfl
  settings := rfl
  reserved := rfl
  bounded := ⟨Nat.le_refl _, Nat.le_max_right _ _⟩

theorem trace_fresh (program : Program) (settings : Settings) : (fresh program settings).trace =
    if settings.trace then some (.ofInitial (fresh program settings).registers (fresh program settings).stack)
    else none := rfl

theorem Sized.header_le (h : m.Sized program settings) : Frame.headerSize ≤ m.core.stack.depth :=
  h.reserved ▸ h.bounded.reserved

theorem Sized.reset (h : m.Sized program settings) : m.reset = fresh program settings := by
  rw [← h.program, ← h.settings]
  rfl

theorem Sized.step {σ : Type} [Channel σ] {s t : Session σ} {r : Except Fault Machine.State}
    (h : s.machine.Sized program settings) (ht : Session.Stepped s r t) :
    t.machine.Sized program settings := by
  have hb := h.bounded
  have hn : s.machine.core.next.stack.Bounded := hb
  have kept : t.machine.core.stack.reserved = s.machine.core.stack.reserved ∧
      t.machine.core.stack.Bounded := by
    rcases ht.core hb with ⟨-, hc | ⟨-, hc⟩⟩ | ⟨i, -, hm⟩
    · rw [hc]
      exact ⟨rfl, hb⟩
    · rw [hc]
      exact ⟨rfl, hb⟩
    · exact ⟨hm.reserved, hm.bounded hn⟩
  constructor
  · exact ht.program.trans h.program
  · exact ht.settings.trans h.settings
  · exact kept.1.trans h.reserved
  · exact kept.2

theorem Reached.sized (h : Reached P program settings log m) : m.Sized program settings := by
  induction h using Reached.induct with
  | built m h => exact h.eq_fresh ▸ sized_fresh program settings
  | step σ s log _ _ ih => exact ih.step (Session.stepped s)
  | reset log m _ ih => exact ih.reset ▸ sized_fresh program settings

theorem Reached.built_fresh (h : Reached P program settings log m) :
    Built program settings (fresh program settings) := by
  induction h using Reached.induct with
  | built m h => exact h.eq_fresh ▸ h
  | step _ _ _ _ _ ih => exact ih
  | reset _ _ _ ih => exact ih

/-- Whatever a machine has done, its reset starts a history of any kind. -/
theorem Reached.restarts (h : Reached P program settings log m) (Q : Guard) :
    Reached Q program settings [] m.reset := by
  rw [h.sized.reset]
  exact .built h.built_fresh

theorem Reached.base_lt (hP : ∀ {σ : Type} [Channel σ] {s : Session σ}, P σ s → s.machine.Addressable)
    (h : Reached P program settings log m) : m.core.base < Word.indexCount := by
  have global : Frame.globalBase < Word.indexCount := by decide
  induction h using Reached.induct with
  | built m h => exact h.eq_fresh ▸ global
  | step σ s log hr hp ih =>
    rcases (Session.stepped s).core hr.sized.bounded with ⟨-, hc | ⟨-, hc⟩⟩ | ⟨i, -, hm⟩
    · rwa [hc]
    · rwa [hc]
    · exact hm.base_lt ih (hP hp).stack
  | reset log m => exact global

theorem Reached.pc_lt (hP : ∀ {σ : Type} [Channel σ] {s : Session σ}, P σ s → s.machine.Addressable)
    (h : Reached P program settings log m) : m.core.pc < Word.indexCount := by
  have start : 0 < Word.indexCount := by decide
  induction h using Reached.induct with
  | built m h => exact h.eq_fresh ▸ start
  | step σ s log hr hp ih =>
    have hlength := (hP hp).program
    rcases (Session.stepped s).core hr.sized.bounded with ⟨-, hc | ⟨hlt, hc⟩⟩ | ⟨i, hi, hm⟩
    · rwa [hc]
    · rw [hc]
      exact Nat.lt_of_le_of_lt hlt hlength
    · exact hm.pc_lt (Nat.lt_of_le_of_lt (pc_lt_of_next? hi) hlength) hlength
  | reset log m => exact start

theorem Reached.capacity_eq (h : Reached P program settings log m) :
    m.core.stack.capacity = settings.stackSize := by
  have fresh : max settings.stackSize Frame.headerSize = settings.stackSize :=
    Nat.max_eq_left h.built_fresh.header_le
  induction h using Reached.induct with
  | built m h => exact h.eq_fresh ▸ fresh
  | step σ s log hr hp ih =>
    rcases (Session.stepped s).core hr.sized.bounded with ⟨-, hc | ⟨-, hc⟩⟩ | ⟨i, -, hm⟩
    · rwa [hc]
    · rwa [hc]
    · exact hm.capacity.trans ih
  | reset log m hr => exact hr.sized.reset ▸ fresh

theorem Reached.addressable (h : Reached P program settings log m) (hlength : program.length < Word.indexCount)
    (hsize : settings.stackSize < Word.indexCount) : m.Addressable := by
  constructor
  · rwa [h.sized.program]
  · have hdepth := h.sized.bounded.capacity
    rw [h.capacity_eq] at hdepth
    exact Nat.lt_of_le_of_lt hdepth hsize

/-- Under settings that words can hold, every history is one of addressable machines. -/
theorem Reached.of_small (h : Reached P program settings log m) (hlength : program.length < Word.indexCount)
    (hsize : settings.stackSize < Word.indexCount) :
    Reached (fun _ _ s => s.machine.Addressable) program settings log m := by
  induction h using Reached.induct with
  | built m h => exact .built h
  | step σ s log h _ ih => exact .step ih (h.addressable hlength hsize)
  | reset log m _ ih => exact .reset ih

end Machine
end PCode
