import PCode.Proofs.Execution.Kinds
import PCode.Proofs.Execution.Rules
/-!
How instructions fail. An instruction that fails has popped its operands, as many of them as there
are above the reserved cells, and has changed nothing else in the core.
-/

namespace PCode

def Instruction.pops : Instruction → Nat
  | .opr (.unary _) => 1
  | .opr (.binary _) => 2
  | .sto _ _ => 1
  | .jpc _ => 1
  | .sio .write => 1
  | .sta _ => 1
  | _ => 0

def Instruction.pushes : Instruction → Nat
  | .lit _ => 1
  | .opr (.unary _) => 1
  | .opr (.binary _) => 1
  | .lod _ _ => 1
  | .cal _ _ => Frame.headerSize
  | .inc amount => amount
  | .sio .read => 1
  | .lda _ => 1
  | _ => 0

def Instruction.level? : Instruction → Option Nat
  | .lod level _ => some level
  | .sto level _ => some level
  | .cal level _ => some level
  | _ => none

namespace Core

variable {c : Core} {i : Instruction} {w x y : Word} {t u : Stack} {e : Error}

def popped (c : Core) (i : Instruction) : Nat := min i.pops (c.stack.depth - c.stack.reserved)

def withoutOperands (c : Core) (i : Instruction) : Core :=
  { c with stack := c.stack.drop (c.popped i) }

theorem popped_of_pops_eq_zero (hi : i.pops = 0) : c.popped i = 0 := by
  rw [popped, hi, Nat.zero_min]

theorem withoutOperands_of_popped_eq_zero (h : c.popped i = 0) : c.withoutOperands i = c := by
  rw [withoutOperands, h, Stack.drop_zero]

theorem withoutOperands_of_pops_eq_zero (hi : i.pops = 0) : c.withoutOperands i = c :=
  withoutOperands_of_popped_eq_zero (popped_of_pops_eq_zero hi)

theorem popped_of_pop (hi : i.pops = 1) (h : c.stack.pop = .ok w t) : c.popped i = 1 := by
  have := Stack.depth_pop h
  rw [popped, hi]
  omega

theorem withoutOperands_of_pop (hi : i.pops = 1) (h : c.stack.pop = .ok w t) :
    c.withoutOperands i = { c with stack := t } := by
  rw [withoutOperands, popped_of_pop hi h, Stack.pop_eq_drop h]

theorem popped_of_pop_of_pop_eq_error (hi : i.pops = 2) (hy : c.stack.pop = .ok y t)
    (hx : t.pop = .error e u) : c.popped i = 1 ∧ e = .stackUnderflow := by
  have := Stack.depth_pop hy
  have := (Stack.agrees_pop hy).reserved
  obtain ⟨_, he, _⟩ := Stack.pop_eq_error_iff.mp hx
  refine ⟨?_, he⟩
  rw [popped, hi]
  omega

theorem popped_of_pop_pop (hi : i.pops = 2) (hy : c.stack.pop = .ok y t) (hx : t.pop = .ok x u) :
    c.popped i = 2 := by
  have := Stack.depth_pop hy
  have := Stack.depth_pop hx
  have := (Stack.agrees_pop hy).reserved
  rw [popped, hi]
  omega

theorem withoutOperands_of_pop_pop (hi : i.pops = 2) (hy : c.stack.pop = .ok y t)
    (hx : t.pop = .ok x u) : c.withoutOperands i = { c with stack := u } := by
  rw [withoutOperands, popped_of_pop_pop hi hy hx, Stack.pop_eq_drop hx, Stack.pop_eq_drop hy,
    Stack.drop_drop]

end Core

namespace Session

open Stack

variable {σ : Type} [Channel σ]

inductive Fails (program : Program) : Instruction → Core → σ → Error → σ → Prop
  | underflow {i c channel} (few : c.popped i < i.pops) :
    Fails program i c channel .stackUnderflow channel
  | overflow {i c channel} (pushing : i.pops = 0 ∧ 0 < i.pushes)
      (full : c.stack.capacity < c.stack.depth + i.pushes) :
    Fails program i c channel (.stackOverflow c.stack.capacity) channel
  | link {c slot e channel} (inner : c.base ≠ Frame.globalBase)
      (reading : slot ∈ [Frame.dynamicLink, Frame.staticLink, Frame.returnAddress])
      (lost : Frame.link c.stack c.base slot = .error e) :
    Fails program (.opr .ret) c channel e channel
  | walk {i c level e channel} (operands : c.popped i = i.pops) (outward : i.level? = some level)
      (lost : Frame.resolve (c.withoutOperands i).stack c.base level = .error e) :
    Fails program i c channel e channel
  | cell {i c address channel} (operands : c.popped i = i.pops)
      (addressing : i.opcode ∈ [.lod, .sto, .lda, .sta])
      (outside : (c.withoutOperands i).stack.depth ≤ address) :
    Fails program i c channel (.invalidAddress address (c.withoutOperands i).stack.sp) channel
  | target {i c target channel} (operands : c.popped i = i.pops)
      (jumping : i.opcode ∈ [.cal, .jmp, .jpc])
      (outside : program.length ≤ target) :
    Fails program i c channel (.invalidProgramCounter target program.length) channel
  | unary {op c x t e channel} (operand : c.stack.pop = .ok x t) (value : op.eval x = .error e) :
    Fails program (.opr (.unary op)) c channel e channel
  | binary {op c y t x u e channel} (right : c.stack.pop = .ok y t) (left : t.pop = .ok x u)
      (value : op.eval x y = .error e) :
    Fails program (.opr (.binary op)) c channel e channel
  | sent {c w t f channel channel'} (operand : c.stack.pop = .ok w t)
      (lost : Channel.write w channel = (.error f, channel')) :
    Fails program (.sio .write) c channel f channel'
  | received {c f channel channel'} (room : c.stack.depth < c.stack.capacity)
      (lost : Channel.read channel = (.error f, channel')) :
    Fails program (.sio .read) c channel f channel'

variable {program : Program} {channel channel' : σ} {i : Instruction} {c d : Core} {t : Stack} {e : Error}
  {w : Word}

theorem perform_eq_error_iff :
    perform program i c channel = (.error e d, channel') ↔
      Core.execute program i c = .error e d ∧ channel = channel' ∨
        ∃ r c', Core.execute program i c = .ok r c' ∧ serve r c' channel = (.error e d, channel') := by
  unfold perform
  cases Core.execute program i c with
  | ok r c' =>
    simp only [EStateM.Result.ok.injEq, reduceCtorEq, false_and, false_or, ↓existsAndEq, and_true, true_and]
  | error e c' =>
    simp only [Prod.mk.injEq, EStateM.Result.error.injEq, reduceCtorEq, false_and, exists_false, or_false]

@[simp]
theorem serve_emit_eq_error_iff :
    serve (.emit w) c channel = (.error e d, channel') ↔
      Channel.write w channel = (.error e, channel') ∧ c = d := by
  simp only [serve]
  rcases Channel.write w channel with ⟨_ | _, k⟩ <;> simp [and_comm, and_left_comm]

@[simp]
theorem serve_accept_eq_error_iff :
    serve .accept c channel = (.error e d, channel') ↔
      (Channel.read channel = (.error e, channel') ∧ c = d) ∨
        ∃ w s, Channel.read channel = (.ok w, channel') ∧ c.stack.push w = .error e s ∧
          { c with stack := s } = d := by
  simp only [serve, Core.push, Core.update]
  rcases Channel.read channel with ⟨_ | w, k⟩
  · simp [and_comm, and_left_comm]
  · cases hp : c.stack.push w <;> simp [hp, and_comm, and_assoc]

theorem fails_of_pop (hi : i.pops ≠ 0) (h : c.stack.pop = .error e t) :
    { c with stack := t } = c.withoutOperands i ∧ Fails program i c channel e channel := by
  obtain ⟨hr, rfl, rfl⟩ := pop_eq_error_iff.mp h
  have hp : c.popped i = 0 := by rw [Core.popped, Nat.sub_eq_zero_of_le hr, Nat.min_zero]
  exact ⟨(Core.withoutOperands_of_popped_eq_zero hp).symm, .underflow (by omega)⟩

theorem fails_of_full (hi : i.pops = 0 ∧ 0 < i.pushes) (h : c.stack.capacity < c.stack.depth + i.pushes) :
    c = c.withoutOperands i ∧ Fails program i c channel (.stackOverflow c.stack.capacity) channel :=
  ⟨(Core.withoutOperands_of_pops_eq_zero hi.1).symm, .overflow hi h⟩

theorem fails_of_walk {level : Nat} (hp : c.popped i = i.pops ∧ d = c.withoutOperands i)
    (hi : i.level? = some level) (h : Frame.resolve d.stack c.base level = .error e) :
    d = c.withoutOperands i ∧ Fails program i c channel e channel :=
  ⟨hp.2, .walk hp.1 hi (hp.2 ▸ h)⟩

theorem fails_of_cell {a : Nat} (hp : c.popped i = i.pops ∧ d = c.withoutOperands i)
    (hi : i.opcode ∈ [.lod, .sto, .lda, .sta]) (h : d.stack.depth ≤ a) :
    d = c.withoutOperands i ∧ Fails program i c channel (.invalidAddress a d.stack.sp) channel := by
  obtain ⟨hp, rfl⟩ := hp
  exact ⟨rfl, .cell hp hi h⟩

theorem fails_of_target {target : Nat} (hp : c.popped i = i.pops ∧ d = c.withoutOperands i)
    (hi : i.opcode ∈ [.cal, .jmp, .jpc]) (h : program.checkTarget target = .error e) :
    d = c.withoutOperands i ∧ Fails program i c channel e channel := by
  obtain ⟨ho, rfl⟩ := Program.checkTarget_eq_error_iff.mp h
  exact ⟨hp.2, .target hp.1 hi ho⟩

section

attribute [local simp] Core.execute Core.operate Core.provide Core.call Core.ret Core.jump
  Core.checkTarget Core.ensureRoom Core.link Core.push Core.store Core.load Core.resolve

theorem fails_of_perform (room : c.stack.depth ≤ c.stack.capacity)
    (h : perform program i c channel = (.error e d, channel')) :
    d = c.withoutOperands i ∧ Fails program i c channel e channel' := by
  have whole (hi : i.pops = 0) : c.popped i = i.pops ∧ c = c.withoutOperands i :=
    ⟨(Core.popped_of_pops_eq_zero hi).trans hi.symm, (Core.withoutOperands_of_pops_eq_zero hi).symm⟩
  have taken {w t} (hi : i.pops = 1) (hp : c.stack.pop = .ok w t) :
      c.popped i = i.pops ∧ { c with stack := t } = c.withoutOperands i :=
    ⟨(Core.popped_of_pop hi hp).trans hi.symm, (Core.withoutOperands_of_pop hi hp).symm⟩
  rw [perform_eq_error_iff] at h
  cases i with
  | lit w =>
    simp at h
    obtain ⟨⟨s, hp, rfl⟩, rfl⟩ := h
    obtain ⟨hf, rfl, rfl⟩ := push_eq_error_iff.mp hp
    exact fails_of_full ⟨rfl, Nat.one_pos⟩ (Nat.lt_succ_of_le hf)
  | opr op =>
    cases op with
    | ret =>
      simp at h
      rcases h with ⟨⟨hb, h⟩, rfl⟩ | ⟨r, c', ⟨-, rfl, rfl⟩ | ⟨-, _, -, -, _, -, rfl, rfl⟩, h⟩
      · rcases h with ⟨hl, rfl⟩ | ⟨-, ⟨hl, rfl⟩ | ⟨⟨-, rfl⟩, hl⟩⟩
        all_goals exact ⟨(whole rfl).2, .link hb (by simp) hl⟩
      · simp at h
      · simp at h
    | unary op =>
      simp at h
      obtain ⟨⟨s, hp, rfl⟩ | ⟨x, t, hx, ⟨hz, rfl⟩ | ⟨z, hz, s, hu, rfl⟩⟩, rfl⟩ := h
      · exact fails_of_pop Nat.one_ne_zero hp
      · exact ⟨(taken rfl hx).2, .unary hx hz⟩
      · exact absurd hu (push_ne_error_of_pop room hx)
    | binary op =>
      simp at h
      obtain ⟨⟨s, hp, rfl⟩ | ⟨y, t, hy, ⟨s, hp, rfl⟩ | ⟨x, u, hx, ⟨hz, rfl⟩ | ⟨z, hz, s, hv, rfl⟩⟩⟩, rfl⟩ := h
      · exact fails_of_pop (Nat.succ_ne_zero 1) hp
      · obtain ⟨ho, rfl⟩ := Core.popped_of_pop_of_pop_eq_error (i := .opr (.binary op)) rfl hy hp
        refine ⟨?_, .underflow (by rw [ho]; exact Nat.one_lt_two)⟩
        rw [Core.withoutOperands, ho, (pop_eq_error_iff.mp hp).2.2, pop_eq_drop hy]
      · exact ⟨(Core.withoutOperands_of_pop_pop rfl hy hx).symm, .binary hy hx hz⟩
      · have hd := depth_pop hy
        have hs := (agrees_pop hy).capacity
        exact absurd hv (push_ne_error_of_pop (by omega) hx)
  | lod level offset =>
    simp at h
    obtain ⟨⟨hw, rfl⟩ | ⟨frame, hw, ⟨hr, rfl⟩ | ⟨w, hr, s, hp, rfl⟩⟩, rfl⟩ := h
    · exact fails_of_walk (whole rfl) rfl hw
    · obtain ⟨ho, rfl⟩ := read_eq_error_iff.mp hr
      exact fails_of_cell (whole rfl) (by simp [Instruction.opcode]) ho
    · obtain ⟨hf, rfl, rfl⟩ := push_eq_error_iff.mp hp
      exact fails_of_full ⟨rfl, Nat.one_pos⟩ (Nat.lt_succ_of_le hf)
  | sto level offset =>
    simp at h
    obtain ⟨⟨s, hp, rfl⟩ | ⟨w, t, hw, ⟨hl, rfl⟩ | ⟨frame, hl, s, hr, rfl⟩⟩, rfl⟩ := h
    · exact fails_of_pop Nat.one_ne_zero hp
    · exact fails_of_walk (taken rfl hw) rfl hl
    · obtain ⟨ho, rfl, rfl⟩ := write_eq_error_iff.mp hr
      exact fails_of_cell (taken rfl hw) (by simp [Instruction.opcode]) ho
  | cal level target =>
    simp at h
    obtain ⟨⟨ht, rfl⟩ | ⟨-, ⟨hl, rfl⟩ | ⟨declaring, hl, ⟨hr, rfl⟩ | ⟨hr, hp⟩⟩⟩, rfl⟩ := h
    · exact fails_of_target (whole rfl) (by simp [Instruction.opcode]) ht
    · exact fails_of_walk (whole rfl) rfl hl
    · obtain ⟨hf, rfl⟩ := ensureRoom_eq_error_iff.mp hr
      exact fails_of_full ⟨rfl, Nat.succ_pos 2⟩ hf
    · rcases hp with ⟨_, hp, -⟩ | ⟨t, hx, ⟨_, hp, -⟩ | ⟨u, hy, _, hp, -⟩⟩
      · exact absurd hp (push_ne_error_of_room hr)
      · exact absurd hp (push_ne_error_of_room (room_of_push hr hx))
      · exact absurd hp (push_ne_error_of_room (room_of_push (room_of_push hr hx) hy))
  | inc amount =>
    simp at h
    obtain ⟨⟨s, hg, rfl⟩, rfl⟩ := h
    obtain ⟨hf, rfl, rfl⟩ := grow_eq_error_iff.mp hg
    have hpos : 0 < amount := by omega
    exact fails_of_full ⟨rfl, hpos⟩ hf
  | jmp target =>
    simp at h
    obtain ⟨⟨ht, rfl⟩, rfl⟩ := h
    exact fails_of_target (whole rfl) (by simp [Instruction.opcode]) ht
  | jpc target =>
    simp at h
    rcases h with ⟨⟨s, hp, rfl⟩ | ⟨t, hw, ht, rfl⟩, rfl⟩ |
      ⟨r, c', ⟨w, t, -, ⟨-, -, rfl, rfl⟩ | ⟨-, rfl, rfl⟩⟩, h⟩
    · exact fails_of_pop Nat.one_ne_zero hp
    · exact fails_of_target (taken rfl hw) (by simp [Instruction.opcode]) ht
    · simp at h
    · simp at h
  | sio service =>
    cases service with
    | write =>
      simp at h
      rcases h with ⟨⟨s, hp, rfl⟩, rfl⟩ | ⟨w, t, hw, hk, rfl⟩
      · exact fails_of_pop Nat.one_ne_zero hp
      · exact ⟨(taken rfl hw).2, .sent hw hk⟩
    | read =>
      simp at h
      rcases h with ⟨⟨hr, rfl⟩, rfl⟩ | ⟨hr, ⟨hk, rfl⟩ | ⟨w, hk, s, hp, rfl⟩⟩
      · obtain ⟨hf, rfl⟩ := ensureRoom_eq_error_iff.mp hr
        exact fails_of_full ⟨rfl, Nat.one_pos⟩ hf
      · exact ⟨(whole rfl).2, .received (ensureRoom_eq_ok_iff.mp hr) hk⟩
      · have := ensureRoom_eq_ok_iff.mp hr
        have := (push_eq_error_iff.mp hp).1
        omega
    | halt =>
      simp at h
  | lda address =>
    simp at h
    obtain ⟨⟨hr, rfl⟩ | ⟨w, hr, s, hp, rfl⟩, rfl⟩ := h
    · obtain ⟨ho, rfl⟩ := read_eq_error_iff.mp hr
      exact fails_of_cell (whole rfl) (by simp [Instruction.opcode]) ho
    · obtain ⟨hf, rfl, rfl⟩ := push_eq_error_iff.mp hp
      exact fails_of_full ⟨rfl, Nat.one_pos⟩ (Nat.lt_succ_of_le hf)
  | sta address =>
    simp at h
    obtain ⟨⟨s, hp, rfl⟩ | ⟨w, t, hw, s, hr, rfl⟩, rfl⟩ := h
    · exact fails_of_pop Nat.one_ne_zero hp
    · obtain ⟨ho, rfl, rfl⟩ := write_eq_error_iff.mp hr
      exact fails_of_cell (taken rfl hw) (by simp [Instruction.opcode]) ho

end

variable [LawfulChannel σ]

theorem Fails.popped (h : Fails program i c channel e channel') :
    if e = .stackUnderflow then c.popped i < i.pops else c.popped i = i.pops := by
  have of_kind (hk : e.kind ≠ .stackUnderflow) (hp : c.popped i = i.pops) :
      if e = .stackUnderflow then c.popped i < i.pops else c.popped i = i.pops := by
    rwa [if_neg (fun he => hk (congrArg Error.kind he))]
  cases h with
  | underflow few => exact few
  | overflow pushing => exact of_kind nofun ((Core.popped_of_pops_eq_zero pushing.1).trans pushing.1.symm)
  | link _ _ lost => exact of_kind (by simp [Frame.kind_of_link lost]) (Core.popped_of_pops_eq_zero rfl)
  | walk operands _ lost => exact of_kind (by simp [Frame.kind_of_resolve lost]) operands
  | cell operands => exact of_kind nofun operands
  | target operands => exact of_kind nofun operands
  | unary operand value =>
    exact of_kind (by simp [Unary.kind_of_eval value]) (Core.popped_of_pop rfl operand)
  | binary right left value =>
    exact of_kind (by simp [Binary.kind_of_eval value]) (Core.popped_of_pop_pop rfl right left)
  | sent operand lost =>
    exact of_kind (by simp [(LawfulChannel.ofChannel_write lost).kind_eq]) (Core.popped_of_pop rfl operand)
  | received _ lost =>
    exact of_kind (by simp [(LawfulChannel.ofChannel_read lost).kind_eq]) (Core.popped_of_pops_eq_zero rfl)

theorem Fails.channel_eq (h : Fails program i c channel e channel') (hk : e.kind ≠ .io) :
    channel' = channel := by
  cases h with
  | sent _ lost => exact absurd (LawfulChannel.ofChannel_write lost).kind_eq hk
  | received _ lost => exact absurd (LawfulChannel.ofChannel_read lost).kind_eq hk
  | _ => rfl

theorem Fails.kind (h : Fails program i c channel e channel') :
    e.kind = .stackUnderflow ∨ (e.kind = .stackOverflow ∧ i.pops = 0 ∧ 0 < i.pushes) ∨
      e.kind ∈ [.invalidAddress, .arithmetic, .io] := by
  cases h with
  | underflow => exact .inl rfl
  | overflow pushing => exact .inr (.inl ⟨rfl, pushing⟩)
  | link _ _ lost => simp [Frame.kind_of_link lost]
  | walk _ _ lost => simp [Frame.kind_of_resolve lost]
  | cell | target => simp [Error.kind]
  | unary _ value => simp [Unary.kind_of_eval value]
  | binary _ _ value => simp [Binary.kind_of_eval value]
  | sent _ lost => simp [(LawfulChannel.ofChannel_write lost).kind_eq]
  | received _ lost => simp [(LawfulChannel.ofChannel_read lost).kind_eq]

theorem Fails.pushes (h : Fails program i c channel e channel') (hk : e.kind = .stackOverflow) :
    i.pops = 0 ∧ 0 < i.pushes := by
  simpa [hk] using h.kind

theorem Fails.kind_ne_cancelled (h : Fails program i c channel e channel') : e.kind ≠ .cancelled := by
  intro hk
  simpa [hk] using h.kind

end Session
end PCode
