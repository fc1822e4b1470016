import PCode.Proofs.Session.Bounds
/-!
The effect of a step that succeeds: how the depth of the stack changes and which cells it keeps, where
the base and the counter go, and what it asks of the channel.
-/

namespace PCode

namespace Core

/-- A return from a frame other than the global one. -/
def Leaves (c : Core) (i : Instruction) : Prop := i = .opr .ret ∧ c.base ≠ Frame.globalBase

/-- Where an instruction goes if not to the next one. -/
def target? (c : Core) : Instruction → Option Nat
  | .cal _ target => some target
  | .jmp target => some target
  | .jpc target => if c.stack.cells.back? = some 0 then some target else none
  | _ => none

structure StackEffect (c : Core) (i : Instruction) (d : Core) : Prop where
  depth : ¬c.Leaves i → d.stack.depth + i.pops = c.stack.depth + i.pushes
  depth_of_leaves : c.Leaves i → d.stack.depth = max c.base Frame.headerSize
  zero : ∀ n, i = .inc n → ∀ a, c.stack.depth ≤ a → a < d.stack.depth → d.stack.cells[a]? = some 0
  stored : ∀ a w, c.store? i = some (a, w) → d.stack.cells[a]? = some w
  kept : ∀ a, a + i.pops < c.stack.depth → a < d.stack.depth → (∀ w, c.store? i ≠ some (a, w)) →
    d.stack.cells[a]? = c.stack.cells[a]?

structure ControlEffect (program : Program) (c : Core) (i : Instruction) (d : Core) : Prop where
  base : ¬c.Leaves i → i.opcode ≠ .cal → d.base = c.base
  base_of_call : i.opcode = .cal → d.base = c.stack.depth
  base_of_leaves : c.Leaves i → Frame.link c.stack c.base Frame.dynamicLink = .ok d.base
  pc : ¬c.Leaves i → c.target? i = none → d.pc = c.pc
  pc_of_target : ∀ target, c.target? i = some target → d.pc = target ∧ target < program.length
  pc_of_leaves : c.Leaves i → Frame.link c.stack c.base Frame.returnAddress = .ok d.pc

/-- A channel is read once, written once, or left alone. -/
structure ChannelEffect {σ : Type} [Channel σ] (c : Core) (channel : σ) (i : Instruction) (d : Core)
    (channel' : σ) : Prop where
  read : i = .sio .read → ∃ w, Channel.read channel = (.ok w, channel') ∧ d.stack.cells.back? = some w
  write : i = .sio .write → ∃ w, c.stack.cells.back? = some w ∧ Channel.write w channel = (.ok (), channel')
  idle : i ≠ .sio .read → i ≠ .sio .write → channel' = channel

end Core

namespace Session

open PCode.Core PCode.Stack
open PCode.Frame (headerSize)

variable {σ : Type} [Channel σ] {program : Program} {channel channel' : σ} {i : Instruction} {c d : Core}
  {halt : Option HaltReason} {a n : Nat} {w : Word} {t : Stack}

theorem popped_of_performs (h : Performs program i c channel halt d channel') : c.popped i = i.pops := by
  cases h with
  | unary operand | sto operand | taken operand | passed operand | write operand | sta operand =>
    exact popped_of_pop rfl operand
  | binary right left => exact popped_of_pop_pop rfl right left
  | _ => exact popped_of_pops_eq_zero rfl

theorem depth_of_performs (h : Performs program i c channel halt d channel') (hl : ¬c.Leaves i) :
    d.stack.depth + i.pops = c.stack.depth + i.pushes := by
  cases h with
  | ret inner => exact absurd ⟨rfl, inner⟩ hl
  | finish | jmp | halt => rfl
  | lit room | lod _ _ room | read _ room | lda _ room => exact depth_push room
  | inc room => exact depth_grow room
  | cal _ _ _ dynamic static address =>
    rw [depth_push address, depth_push static, depth_push dynamic]
    rfl
  | unary operand _ room =>
    rw [depth_push room, (depth_pop operand).1]
    rfl
  | binary right left _ room =>
    rw [depth_push room, (depth_pop right).1, (depth_pop left).1]
    rfl
  | sto operand _ cell | sta operand cell =>
    rw [depth_write cell]
    exact (depth_pop operand).1.symm
  | taken operand | passed operand | write operand => exact (depth_pop operand).1.symm

theorem depth_of_leaves (hb : c.stack.Bounded) (hr : c.stack.reserved = headerSize)
    (h : Performs program i c channel halt d channel') (hl : c.Leaves i) :
    d.stack.depth = max c.base headerSize := by
  obtain ⟨rfl, inner⟩ := hl
  cases h with
  | finish outermost => exact absurd outermost inner
  | @ret _ base s _ _ _ _ _ _ _ address =>
    -- The last link of the frame lies above its base.
    obtain ⟨_, hw, -⟩ := Frame.link_eq_ok_iff.mp address
    have hlt : base + Frame.returnAddress < s.depth := (Array.getElem?_eq_some_iff.mp hw).1
    have hbase : base ≤ s.depth := Nat.le_trans (Nat.le_add_right _ _) (Nat.le_of_lt hlt)
    have hheader : headerSize ≤ s.depth := hr ▸ hb.reserved
    rw [depth_truncate, hr]
    exact Nat.min_eq_right (Nat.max_le.mpr ⟨hbase, hheader⟩)

theorem kept_of_performs (hb : c.stack.Bounded) (h : Performs program i c channel halt d channel')
    (ha : a + i.pops < c.stack.depth) (ha' : a < d.stack.depth) (hs : ∀ w, c.store? i ≠ some (a, w)) :
    d.stack.cells[a]? = c.stack.cells[a]? := by
  have hp := popped_of_performs h
  cases moves_of_performs hb h with
  | called => exact agrees_enter.cells a ha
  | returned =>
    rw [depth_truncate] at ha'
    exact cell_take (Nat.lt_of_lt_of_le ha' (Nat.min_le_right _ _))
  | stayed _ _ _ cells =>
    have hn : (c.store? i).toList.lookup a = none := by
      rw [List.lookup_eq_none_iff]
      rintro ⟨b, w⟩ hm
      apply bne_iff_ne.mpr
      rintro rfl
      exact hs w (Option.mem_toList.mp hm)
    rw [cells.cells a (by omega), hn, Option.none_or]

theorem stored_of_performs (h : Performs program i c channel halt d channel')
    (hs : c.store? i = some (a, w)) : d.stack.cells[a]? = some w := by
  cases h with
  | sto operand walk cell =>
    rw [store?_sto operand walk] at hs
    cases hs
    rw [cell_write cell, if_pos rfl]
  | sta operand cell =>
    rw [store?_sta operand] at hs
    cases hs
    rw [cell_write cell, if_pos rfl]
  | _ => cases hs

theorem zero_of_performs (h : Performs program (.inc n) c channel halt d channel')
    (ha : c.stack.depth ≤ a) (ha' : a < d.stack.depth) : d.stack.cells[a]? = some 0 := by
  cases h with
  | inc room =>
    rw [depth_grow room] at ha'
    obtain ⟨-, rfl⟩ := grow_eq_ok_iff.mp room
    simp only [depth] at ha ha'
    rw [Array.getElem?_append_right ha, Array.getElem?_replicate, if_pos (by omega)]

theorem stackEffect_of_performs (hb : c.stack.Bounded) (hr : c.stack.reserved = headerSize)
    (h : Performs program i c channel halt d channel') : c.StackEffect i d where
  depth := depth_of_performs h
  depth_of_leaves := depth_of_leaves hb hr h
  zero := by
    rintro n rfl a ha ha'
    exact zero_of_performs h ha ha'
  stored _ _ := stored_of_performs h
  kept _ := kept_of_performs hb h

theorem target?_jpc {target : Nat} (operand : c.stack.pop = .ok w t) :
    c.target? (.jpc target) = if w = 0 then some target else none := by
  have hw := (pop_eq_ok_iff.mp operand).2.1
  simp only [target?, hw, Option.some.injEq]

theorem target_of_performs {target : Nat} (h : Performs program i c channel halt d channel')
    (ht : c.target? i = some target) : d.pc = target ∧ target < program.length := by
  cases h with
  | cal inside | jmp inside =>
    cases ht
    exact ⟨rfl, Program.checkTarget_eq_ok_iff.mp inside⟩
  | taken zero inside =>
    rw [target?_jpc zero, if_pos rfl] at ht
    cases ht
    exact ⟨rfl, Program.checkTarget_eq_ok_iff.mp inside⟩
  | passed operand nonzero =>
    rw [target?_jpc operand, if_neg nonzero] at ht
    cases ht
  | _ => cases ht

theorem pc_of_performs (h : Performs program i c channel halt d channel') (hl : ¬c.Leaves i)
    (ht : c.target? i = none) : d.pc = c.pc := by
  cases h with
  | ret inner => exact absurd ⟨rfl, inner⟩ hl
  | cal | jmp => cases ht
  | taken zero =>
    rw [target?_jpc zero, if_pos rfl] at ht
    cases ht
  | _ => rfl

theorem base_of_performs (h : Performs program i c channel halt d channel') (hl : ¬c.Leaves i)
    (hc : i.opcode ≠ .cal) : d.base = c.base := by
  cases h with
  | ret inner => exact absurd ⟨rfl, inner⟩ hl
  | cal => exact absurd rfl hc
  | _ => rfl

theorem base_of_call (h : Performs program i c channel halt d channel') (hc : i.opcode = .cal) :
    d.base = c.stack.depth := by
  cases h with
  | cal => rfl
  | _ => cases hc

theorem links_of_leaves (h : Performs program i c channel halt d channel') (hl : c.Leaves i) :
    Frame.link c.stack c.base Frame.dynamicLink = .ok d.base ∧
      Frame.link c.stack c.base Frame.returnAddress = .ok d.pc := by
  obtain ⟨rfl, inner⟩ := hl
  cases h with
  | finish outermost => exact absurd outermost inner
  | ret _ dynamic _ address => exact ⟨dynamic, address⟩

theorem controlEffect_of_performs (h : Performs program i c channel halt d channel') :
    c.ControlEffect program i d where
  base := base_of_performs h
  base_of_call := base_of_call h
  base_of_leaves hl := (links_of_leaves h hl).1
  pc := pc_of_performs h
  pc_of_target _ := target_of_performs h
  pc_of_leaves hl := (links_of_leaves h hl).2

theorem channelEffect_of_performs (h : Performs program i c channel halt d channel') :
    c.ChannelEffect channel i d channel' := by
  constructor
  case read =>
    rintro rfl
    cases h with
    | @read _ _ _ w _ _ _ received room =>
      obtain ⟨-, rfl⟩ := push_eq_ok_iff.mp room
      exact ⟨w, received, Array.back?_push⟩
  case write =>
    rintro rfl
    cases h with
    | @write _ _ _ w _ _ _ operand sent => exact ⟨w, (pop_eq_ok_iff.mp operand).2.1, sent⟩
  case idle =>
    intro hread hwrite
    cases h with
    | read => exact absurd rfl hread
    | write => exact absurd rfl hwrite
    | _ => rfl

/-- What executing `i` without a fault does to the stack, the registers and the channel of `s`. -/
structure Effect (s : Session σ) (i : Instruction) (t : Session σ) : Prop where
  stack : s.machine.core.next.StackEffect i t.machine.core
  control : s.machine.core.next.ControlEffect s.machine.program i t.machine.core
  channel : s.machine.core.next.ChannelEffect s.channel i t.machine.core t.channel

theorem effect_of_step {s t : Session σ} {settings : Settings} {log : List Execution} {state : Machine.State}
    (reached : Machine.Reached (fun _ _ _ => True) program settings log s.machine)
    (next : s.machine.next? = some i) (step : s.step = (.ok state, t)) : s.Effect i t := by
  obtain ⟨halt, performs⟩ := (stepped_of_step step).performs next
  constructor
  case stack => exact stackEffect_of_performs reached.sized.bounded reached.sized.reserved performs
  case control => exact controlEffect_of_performs performs
  case channel => exact channelEffect_of_performs performs

/-- A procedure about to return after it has overwritten its dynamic link. -/
def leaving : Session QueueChannel :=
  (scripted (.ofProgram (Program.ofInstructions [.cal 0 1, .lit 7, .sta 3, .opr .ret])) []).after 3

theorem effect_leaving :
    leaving.Effect (.opr .ret) leaving.step.2 ∧ leaving.machine.core.next.Leaves (.opr .ret) ∧
      leaving.step.2.machine.core.base = 7 ∧ leaving.step.2.machine.core.stack.depth = headerSize := by
  let program := Program.ofInstructions [.cal 0 1, .lit 7, .sta 3, .opr .ret]
  have h₀ : Machine.Reached (fun _ _ _ => True) program {} [] (.ofProgram program) := .built .ofProgram
  have reached := h₀.after (s := scripted (.ofProgram program) []) 3 fun _ _ => trivial
  have leaves : leaving.machine.core.next.Leaves (.opr .ret) := ⟨rfl, by decide⟩
  have h : leaving.Effect (.opr .ret) leaving.step.2 := effect_of_step reached rfl rfl
  exact ⟨h, leaves, rfl, h.stack.depth_of_leaves leaves⟩

end Session
end PCode
