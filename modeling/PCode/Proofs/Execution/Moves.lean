import PCode.Proofs.Execution.Failure
import PCode.Proofs.Frame.Link
/-!
How an instruction moves between frames. A call lays a frame on top of the stack and a return cuts the
stack below the frame it leaves. Every other instruction stays in its frame and, apart from the cell
that it stores into, keeps everything below its operands.
-/

namespace PCode

namespace Core

/-- The cell that an instruction stores into, and the word that it stores there. -/
def store? (c : Core) : Instruction → Option (Nat × Word)
  | .sto level offset =>
    match c.stack.pop with
    | .ok w t => (Frame.resolve t c.base level).toOption.map fun frame => (frame + offset, w)
    | .error _ _ => none
  | .sta address =>
    match c.stack.pop with
    | .ok w _ => some (address, w)
    | .error _ _ => none
  | _ => none

/-- A call lays a frame, a return drops one, and anything else stays where it is, or fails there. -/
inductive Moves (program : Program) (c : Core) : Instruction → Core → Prop
  | called {level target declaring} (inside : target < program.length)
      (walk : Frame.resolve c.stack c.base level = .ok declaring)
      (room : c.stack.depth + Frame.headerSize ≤ c.stack.capacity) :
    Moves program c (.cal level target) ⟨target, c.stack.depth, c.stack.enter c.base declaring c.pc⟩
  | returned {caller declaring next} (inner : c.base ≠ Frame.globalBase)
      (dynamic : Frame.link c.stack c.base Frame.dynamicLink = .ok caller)
      (static : Frame.link c.stack c.base Frame.staticLink = .ok declaring)
      (address : Frame.link c.stack c.base Frame.returnAddress = .ok next) :
    Moves program c (.opr .ret) ⟨next, caller, c.stack.truncate c.base⟩
  | stayed {i pc t} (place : pc = c.pc ∨ pc < program.length)
      (height : c.stack.depth - c.popped i ≤ t.depth) (bounded : t.Bounded)
      (cells : c.stack.Patched (c.stack.depth - c.popped i) (c.store? i).toList t) :
    Moves program c i ⟨pc, c.base, t⟩

variable {c d : Core} {i : Instruction} {program : Program} {t u : Stack} {w : Word}
  {pc level address : Nat}

theorem store?_sto {offset frame : Nat} (operand : c.stack.pop = .ok w t)
    (walk : Frame.resolve t c.base level = .ok frame) :
    c.store? (.sto level offset) = some (frame + offset, w) := by
  simp [store?, operand, walk, Except.toOption]

theorem store?_sta (operand : c.stack.pop = .ok w t) : c.store? (.sta address) = some (address, w) := by
  simp [store?, operand]

theorem store?_eq_some {a : Nat} (h : c.store? i = some (a, w)) :
    ∃ t, c.stack.pop = .ok w t ∧ ((∃ level offset frame, i = .sto level offset ∧
      Frame.resolve t c.base level = .ok frame ∧ a = frame + offset) ∨ i = .sta a) := by
  cases i with
  | sto level offset =>
    rcases hp : c.stack.pop with ⟨v, t⟩ | ⟨e, t⟩
    · rcases hr : Frame.resolve t c.base level with e | frame
      · simp [store?, hp, hr, Except.toOption] at h
      · rw [store?_sto hp hr] at h
        obtain ⟨rfl, rfl⟩ := h
        exact ⟨t, rfl, .inl ⟨level, offset, frame, rfl, hr, rfl⟩⟩
    · simp [store?, hp] at h
  | sta address =>
    rcases hp : c.stack.pop with ⟨v, t⟩ | ⟨e, t⟩
    · rw [store?_sta hp] at h
      obtain ⟨rfl, rfl⟩ := h
      exact ⟨t, rfl, .inr rfl⟩
    · simp [store?, hp] at h
  | _ => simp [store?] at h

theorem Moves.bounded (hc : c.stack.Bounded) (h : Moves program c i d) : d.stack.Bounded := by
  cases h with
  | called _ _ room => exact hc.enter room
  | returned => exact hc.truncate c.base
  | stayed _ _ bounded => exact bounded

theorem Moves.base_lt (h : Moves program c i d) (hbase : c.base < Word.indexCount)
    (hdepth : c.stack.depth < Word.indexCount) : d.base < Word.indexCount := by
  cases h with
  | called => exact hdepth
  | returned _ dynamic => exact Frame.link_lt dynamic
  | stayed => exact hbase

theorem Moves.pc_lt (h : Moves program c i d) (hpc : c.pc < Word.indexCount)
    (hlength : program.length < Word.indexCount) : d.pc < Word.indexCount := by
  cases h with
  | called inside => exact Nat.lt_trans inside hlength
  | returned _ _ _ address => exact Frame.link_lt address
  | stayed place =>
    rcases place with rfl | place
    · exact hpc
    · exact Nat.lt_trans place hlength

theorem Moves.capacity (h : Moves program c i d) : d.stack.capacity = c.stack.capacity := by
  cases h with
  | called => rfl
  | returned => rfl
  | stayed _ _ _ cells => exact cells.capacity

theorem Moves.reserved (h : Moves program c i d) : d.stack.reserved = c.stack.reserved := by
  cases h with
  | called => rfl
  | returned => rfl
  | stayed _ _ _ cells => exact cells.reserved

theorem agrees_withoutOperands (c : Core) (i : Instruction) :
    c.stack.Agrees (c.withoutOperands i).stack.depth (c.withoutOperands i).stack := by
  rw [withoutOperands, Stack.depth_drop]
  exact Stack.agrees_drop c.stack (c.popped i)

theorem Moves.stay (operands : c.withoutOperands i = { c with stack := t })
    (place : pc = c.pc ∨ pc < program.length) (height : t.depth ≤ u.depth) (bounded : u.Bounded)
    (cells : t.Patched t.depth (c.store? i).toList u) : Moves program c i ⟨pc, c.base, u⟩ := by
  have ht : t = (c.withoutOperands i).stack := by rw [operands]
  subst ht
  have hd : (c.withoutOperands i).stack.depth = c.stack.depth - c.popped i :=
    Stack.depth_drop c.stack (c.popped i)
  have ha := agrees_withoutOperands c i
  rw [hd] at height cells ha
  have hp := ha.patched.trans cells
  rw [List.append_nil] at hp
  exact .stayed place height bounded hp

theorem Moves.rest (operands : c.withoutOperands i = { c with stack := t }) (hs : c.store? i = none)
    (place : pc = c.pc ∨ pc < program.length) (bounded : t.Bounded) : Moves program c i ⟨pc, c.base, t⟩ := by
  apply Moves.stay operands place (Nat.le_refl _) bounded
  rw [hs]
  exact (Stack.Agrees.refl t t.depth).patched

theorem Moves.push (operands : c.withoutOperands i = { c with stack := t }) (hs : c.store? i = none)
    (bounded : t.Bounded) (h : t.push w = .ok () u) : Moves program c i ⟨c.pc, c.base, u⟩ := by
  have hd := Stack.depth_push h
  apply Moves.stay operands (.inl rfl) _ (bounded.push h)
  · rw [hs]
    exact (Stack.agrees_push h).patched
  · omega

theorem Moves.grow {amount : Nat} (operands : c.withoutOperands i = { c with stack := t })
    (hs : c.store? i = none) (bounded : t.Bounded) (h : t.grow amount = .ok () u) :
    Moves program c i ⟨c.pc, c.base, u⟩ := by
  have hd := Stack.depth_grow h
  apply Moves.stay operands (.inl rfl) _ (bounded.grow h)
  · rw [hs]
    exact (Stack.agrees_grow h).patched
  · omega

theorem Moves.write (operands : c.withoutOperands i = { c with stack := t })
    (hs : c.store? i = some (address, w)) (bounded : t.Bounded) (h : t.write address w = .ok () u) :
    Moves program c i ⟨c.pc, c.base, u⟩ := by
  have hd := Stack.depth_write h
  apply Moves.stay operands (.inl rfl) _ (bounded.write h)
  · rw [hs]
    exact Stack.patched_write h t.depth
  · omega

def PopsAbove (c : Core) (i : Instruction) (n : Nat) : Prop :=
  ∀ a, c.stack.depth - c.popped i ≤ a → a < c.stack.depth → n ≤ a

theorem PopsAbove.le {n : Nat} (h : c.PopsAbove i n) (hn : n ≤ c.stack.depth) :
    n ≤ c.stack.depth - c.popped i := by
  by_cases hp : c.stack.depth - c.popped i < c.stack.depth
  · exact h _ (Nat.le_refl _) hp
  · omega

end Core

namespace Session

open PCode.Core PCode.Stack

variable {σ : Type} [Channel σ] {program : Program} {channel channel' : σ} {i : Instruction} {c d : Core}
  {e : Error} {halt : Option HaltReason} {a : Nat} {w : Word}

theorem moves_of_performs (hc : c.stack.Bounded) (h : Performs program i c channel halt d channel') :
    Moves program c i d := by
  cases h with
  | ret inner dynamic static address => exact .returned inner dynamic static address
  | cal inside walk room dynamic static address =>
    obtain rfl := eq_enter_of_push dynamic static address
    exact .called (Program.checkTarget_eq_ok_iff.mp inside) walk room
  | finish | halt => exact .rest (withoutOperands_of_pops_eq_zero rfl) rfl (.inl rfl) hc
  | jmp inside =>
    have ht := Program.checkTarget_eq_ok_iff.mp inside
    exact .rest (withoutOperands_of_pops_eq_zero rfl) rfl (.inr ht) hc
  | taken zero inside =>
    have ht := Program.checkTarget_eq_ok_iff.mp inside
    exact .rest (withoutOperands_of_pop rfl zero) rfl (.inr ht) (hc.pop zero)
  | passed operand | write operand =>
    exact .rest (withoutOperands_of_pop rfl operand) rfl (.inl rfl) (hc.pop operand)
  | lit room | lod _ _ room | read _ room | lda _ room =>
    exact .push (withoutOperands_of_pops_eq_zero rfl) rfl hc room
  | inc room => exact .grow (withoutOperands_of_pops_eq_zero rfl) rfl hc room
  | unary operand _ room => exact .push (withoutOperands_of_pop rfl operand) rfl (hc.pop operand) room
  | binary right left _ room =>
    have ht := (hc.pop right).pop left
    exact .push (withoutOperands_of_pop_pop rfl right left) rfl ht room
  | sto operand walk cell =>
    exact .write (withoutOperands_of_pop rfl operand) (store?_sto operand walk) (hc.pop operand) cell
  | sta operand cell =>
    exact .write (withoutOperands_of_pop rfl operand) (store?_sta operand) (hc.pop operand) cell

theorem depth_le_of_store? (h : perform program i c channel = (.error e d, channel'))
    (hs : c.store? i = some (a, w)) : c.stack.depth - c.popped i ≤ a := by
  obtain ⟨t, hp, hi⟩ := store?_eq_some hs
  apply Nat.le_of_not_lt
  intro hlt
  have hd := (depth_pop hp).1
  have ok : ∃ d', Performs program i c channel none d' channel := by
    obtain ⟨pc, base, s⟩ := c
    rcases hi with ⟨level, offset, frame, rfl, hr, rfl⟩ | rfl
    · have hn := popped_of_pop (c := ⟨pc, base, s⟩) (i := .sto level offset) rfl hp
      exact ⟨_, .sto hp hr (write_eq_ok_iff.mpr ⟨by omega, rfl⟩)⟩
    · have hn := popped_of_pop (c := ⟨pc, base, s⟩) (i := .sta a) rfl hp
      exact ⟨_, .sta hp (write_eq_ok_iff.mpr ⟨by omega, rfl⟩)⟩
  obtain ⟨d', ok⟩ := ok
  rw [ok.perform] at h
  cases h

theorem moves_of_perform_error (hc : c.stack.Bounded)
    (h : perform program i c channel = (.error e d, channel')) : Moves program c i d := by
  have outside : ∀ p ∈ (c.store? i).toList, c.stack.depth - c.popped i ≤ p.1 := by
    rintro ⟨a, w⟩ hp
    exact depth_le_of_store? h (Option.mem_toList.mp hp)
  obtain ⟨rfl, -⟩ := fails_of_perform hc.capacity h
  have hd : (c.stack.drop (c.popped i)).depth = c.stack.depth - c.popped i := depth_drop _ _
  have hb := hc.drop (Nat.min_le_right i.pops (c.stack.depth - c.stack.reserved))
  exact .stayed (.inl rfl) (Nat.le_of_eq hd.symm) hb ((agrees_drop _ _).patched_of_le outside)

end Session
end PCode
