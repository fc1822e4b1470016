import PCode.Machine.Session
import PCode.Proofs.Execution.Steps
import PCode.Proofs.Stack.Effect
/-!
The instruction set as rules. An instruction that succeeds takes a core and a channel to a core and a
channel by exactly one of them; the counter of the core already points past the instruction.
-/

namespace PCode

variable {σ : Type} [Channel σ] {program : Program} {channel channel' : σ}

namespace Session

open Stack
open PCode.Frame (globalBase headerSize dynamicLink staticLink returnAddress)

/-- The first `Option` says whether the machine halts, and why. -/
inductive Performs (program : Program) :
    Instruction → Core → σ → Option HaltReason → Core → σ → Prop
  | lit {pc base s w t channel} (room : s.push w = .ok () t) :
    Performs program (.lit w) ⟨pc, base, s⟩ channel none ⟨pc, base, t⟩ channel
  | finish {pc base s channel} (outermost : base = globalBase) :
    Performs program (.opr .ret) ⟨pc, base, s⟩ channel (some .returnFromMain) ⟨pc, base, s⟩ channel
  | ret {pc base s caller declaring next channel} (inner : base ≠ globalBase)
      (dynamic : Frame.link s base dynamicLink = .ok caller)
      (static : Frame.link s base staticLink = .ok declaring)
      (address : Frame.link s base returnAddress = .ok next) :
    Performs program (.opr .ret) ⟨pc, base, s⟩ channel none ⟨next, caller, s.truncate base⟩ channel
  | unary {pc base s op x t z u channel} (operand : s.pop = .ok x t) (value : op.eval x = .ok z)
      (room : t.push z = .ok () u) :
    Performs program (.opr (.unary op)) ⟨pc, base, s⟩ channel none ⟨pc, base, u⟩ channel
  | binary {pc base s op y t x u z v channel} (right : s.pop = .ok y t)
      (left : t.pop = .ok x u) (value : op.eval x y = .ok z) (room : u.push z = .ok () v) :
    Performs program (.opr (.binary op)) ⟨pc, base, s⟩ channel none ⟨pc, base, v⟩ channel
  | lod {pc base s level offset frame w t channel} (walk : Frame.resolve s base level = .ok frame)
      (cell : s.read (frame + offset) = .ok w) (room : s.push w = .ok () t) :
    Performs program (.lod level offset) ⟨pc, base, s⟩ channel none ⟨pc, base, t⟩ channel
  | sto {pc base s level offset w t frame u channel} (operand : s.pop = .ok w t)
      (walk : Frame.resolve t base level = .ok frame)
      (cell : t.write (frame + offset) w = .ok () u) :
    Performs program (.sto level offset) ⟨pc, base, s⟩ channel none ⟨pc, base, u⟩ channel
  | cal {pc base s level target declaring t u v channel} (inside : program.checkTarget target = .ok ())
      (walk : Frame.resolve s base level = .ok declaring)
      (room : s.depth + headerSize ≤ s.capacity)
      (dynamic : s.push (Word.ofIndex base) = .ok () t)
      (static : t.push (Word.ofIndex declaring) = .ok () u)
      (address : u.push (Word.ofIndex pc) = .ok () v) :
    Performs program (.cal level target) ⟨pc, base, s⟩ channel none ⟨target, s.depth, v⟩ channel
  | inc {pc base s amount t channel} (room : s.grow amount = .ok () t) :
    Performs program (.inc amount) ⟨pc, base, s⟩ channel none ⟨pc, base, t⟩ channel
  | jmp {pc base s target channel} (inside : program.checkTarget target = .ok ()) :
    Performs program (.jmp target) ⟨pc, base, s⟩ channel none ⟨target, base, s⟩ channel
  | taken {pc base s target t channel} (zero : s.pop = .ok 0 t)
      (inside : program.checkTarget target = .ok ()) :
    Performs program (.jpc target) ⟨pc, base, s⟩ channel none ⟨target, base, t⟩ channel
  | passed {pc base s target w t channel} (operand : s.pop = .ok w t) (nonzero : w ≠ 0) :
    Performs program (.jpc target) ⟨pc, base, s⟩ channel none ⟨pc, base, t⟩ channel
  | write {pc base s w t channel channel'} (operand : s.pop = .ok w t)
      (sent : Channel.write w channel = (.ok (), channel')) :
    Performs program (.sio .write) ⟨pc, base, s⟩ channel none ⟨pc, base, t⟩ channel'
  | read {pc base s w t channel channel'} (received : Channel.read channel = (.ok w, channel'))
      (room : s.push w = .ok () t) :
    Performs program (.sio .read) ⟨pc, base, s⟩ channel none ⟨pc, base, t⟩ channel'
  | halt {pc base s channel} :
    Performs program (.sio .halt) ⟨pc, base, s⟩ channel (some .halt) ⟨pc, base, s⟩ channel
  | lda {pc base s address w t channel} (cell : s.read address = .ok w) (room : s.push w = .ok () t) :
    Performs program (.lda address) ⟨pc, base, s⟩ channel none ⟨pc, base, t⟩ channel
  | sta {pc base s address w t u channel} (operand : s.pop = .ok w t)
      (cell : t.write address w = .ok () u) :
    Performs program (.sta address) ⟨pc, base, s⟩ channel none ⟨pc, base, u⟩ channel

variable {i : Instruction} {c d : Core} {halt : Option HaltReason} {w : Word} {reason : HaltReason}

theorem perform_eq_ok_iff :
    perform program i c channel = (.ok halt d, channel') ↔
      ∃ r c', Core.execute program i c = .ok r c' ∧ serve r c' channel = (.ok halt d, channel') := by
  unfold perform
  cases Core.execute program i c with
  | ok r c' => simp only [EStateM.Result.ok.injEq, ↓existsAndEq, and_true, true_and]
  | error e c' => simp only [Prod.mk.injEq, reduceCtorEq, false_and, exists_false]

@[simp]
theorem serve_proceed : serve .proceed c channel = (.ok none c, channel) := rfl

@[simp]
theorem serve_halt : serve (.halt reason) c channel = (.ok (some reason) c, channel) := rfl

@[simp]
theorem serve_emit_eq_ok_iff :
    serve (.emit w) c channel = (.ok halt d, channel') ↔
      Channel.write w channel = (.ok (), channel') ∧ none = halt ∧ c = d := by
  simp only [serve]
  rcases Channel.write w channel with ⟨_ | _, k⟩ <;> simp [and_comm]

@[simp]
theorem serve_accept_eq_ok_iff :
    serve .accept c channel = (.ok halt d, channel') ↔
      ∃ w s, Channel.read channel = (.ok w, channel') ∧ c.stack.push w = .ok () s ∧
        none = halt ∧ { c with stack := s } = d := by
  simp only [serve, Core.push, Core.update]
  rcases Channel.read channel with ⟨_ | w, k⟩
  · simp
  · cases hp : c.stack.push w <;> simp [hp, and_comm, and_assoc]

theorem depth_links {s t u v : Stack} {x y z : Word} (hx : s.push x = .ok () t) (hy : t.push y = .ok () u)
    (hz : u.push z = .ok () v) : v.depth - headerSize = s.depth := by
  rw [depth_push hz, depth_push hy, depth_push hx]
  rfl

section

attribute [local simp] Core.execute Core.operate Core.provide Core.call Core.ret Core.jump
  Core.checkTarget Core.ensureRoom Core.link Core.push Core.store Core.load Core.resolve

theorem performs_of_perform (h : perform program i c channel = (.ok halt d, channel')) :
    Performs program i c channel halt d channel' := by
  obtain ⟨pc, base, s⟩ := c
  rw [perform_eq_ok_iff] at h
  cases i with
  | lit w =>
    simp at h
    obtain ⟨t, ht, ⟨rfl, rfl⟩, rfl⟩ := h
    exact .lit ht
  | opr op =>
    cases op with
    | ret =>
      simp at h
      obtain ⟨r, e, ⟨hb, rfl, rfl⟩ | ⟨hb, caller, hd, ⟨declaring, hs⟩, next, ha, rfl, rfl⟩, hr⟩ := h
      · obtain ⟨⟨rfl, rfl⟩, rfl⟩ := by simpa using hr
        exact .finish hb
      · obtain ⟨⟨rfl, rfl⟩, rfl⟩ := by simpa using hr
        exact .ret hb hd hs ha
    | unary op =>
      simp at h
      obtain ⟨x, t, z, u, ⟨hx, hz, hu⟩, ⟨rfl, rfl⟩, rfl⟩ := h
      exact .unary hx hz hu
    | binary op =>
      simp at h
      obtain ⟨y, t, x, u, z, v, ⟨hy, hx, hz, hv⟩, ⟨rfl, rfl⟩, rfl⟩ := h
      exact .binary hy hx hz hv
  | lod level offset =>
    simp at h
    obtain ⟨frame, w, t, ⟨hf, hw, ht⟩, ⟨rfl, rfl⟩, rfl⟩ := h
    exact .lod hf hw ht
  | sto level offset =>
    simp at h
    obtain ⟨w, t, frame, u, ⟨hw, hf, hu⟩, ⟨rfl, rfl⟩, rfl⟩ := h
    exact .sto hw hf hu
  | cal level target =>
    simp at h
    obtain ⟨declaring, t, u, v, ⟨ht, hw, hr, hd, hs, ha⟩, ⟨rfl, rfl⟩, rfl⟩ := h
    rw [depth_links hd hs ha]
    exact .cal ht hw (ensureRoom_eq_ok_iff.mp hr) hd hs ha
  | inc amount =>
    simp at h
    obtain ⟨t, ht, ⟨rfl, rfl⟩, rfl⟩ := h
    exact .inc ht
  | jmp target =>
    simp at h
    obtain ⟨ht, ⟨rfl, rfl⟩, rfl⟩ := h
    exact .jmp ht
  | jpc target =>
    simp at h
    obtain ⟨r, e, ⟨w, t, hw, ⟨rfl, ht, rfl, rfl⟩ | ⟨hz, rfl, rfl⟩⟩, hr⟩ := h
    · obtain ⟨⟨rfl, rfl⟩, rfl⟩ := by simpa using hr
      exact .taken hw ht
    · obtain ⟨⟨rfl, rfl⟩, rfl⟩ := by simpa using hr
      exact .passed hw hz
  | sio service =>
    cases service with
    | write =>
      simp at h
      obtain ⟨w, t, hw, hk, rfl, rfl⟩ := h
      exact .write hw hk
    | read =>
      simp at h
      obtain ⟨-, w, hk, t, ht, rfl, rfl⟩ := h
      exact .read hk ht
    | halt =>
      simp at h
      obtain ⟨⟨rfl, rfl⟩, rfl⟩ := h
      exact .halt
  | lda address =>
    simp at h
    obtain ⟨w, t, ⟨hw, ht⟩, ⟨rfl, rfl⟩, rfl⟩ := h
    exact .lda hw ht
  | sta address =>
    simp at h
    obtain ⟨w, t, u, ⟨hw, hu⟩, ⟨rfl, rfl⟩, rfl⟩ := h
    exact .sta hw hu

theorem Performs.perform (h : Performs program i c channel halt d channel') :
    perform program i c channel = (.ok halt d, channel') := by
  rw [perform_eq_ok_iff]
  cases h with
  | cal inside walk room dynamic static address =>
    have hr := ensureRoom_eq_ok_iff.mpr room
    have hv := depth_links dynamic static address
    simp [inside, walk, hr, dynamic, static, address, hv]
  | @read _ _ s _ _ _ _ received room =>
    have hr : s.ensureRoom 1 = .ok () := ensureRoom_eq_ok_iff.mpr (push_eq_ok_iff.mp room).1
    simp [hr, received, room]
  | _ => simp [*]

theorem eq_read_of_execute_eq_accept (h : Core.execute program i c = .ok .accept d) : i = .sio .read ∧ d = c := by
  cases i with
  | sio service =>
    cases service with
    | read =>
      simp at h
      exact ⟨rfl, h.2.symm⟩
    | write | halt => simp at h
  | opr op => cases op <;> simp at h
  | _ => simp at h

theorem eq_write_of_execute_eq_emit (h : Core.execute program i c = .ok (.emit w) d) :
    i = .sio .write ∧ ∃ s, c.stack.pop = .ok w s := by
  cases i with
  | sio service =>
    cases service with
    | write =>
      simp at h
      obtain ⟨s, hs, -⟩ := h
      exact ⟨rfl, s, hs⟩
    | read | halt => simp at h
  | opr op => cases op <;> simp at h
  | _ => simp at h

theorem room_of_execute_eq_accept (h : Core.execute program i c = .ok .accept d) :
    c.stack.ensureRoom 1 = .ok () := by
  obtain ⟨rfl, -⟩ := eq_read_of_execute_eq_accept h
  simp at h
  exact h.1

theorem eq_accept_of_execute_read {r : Request} (h : Core.execute program (.sio .read) c = .ok r d) :
    r = .accept := by
  simp at h
  exact h.2.symm

theorem eq_emit_of_execute_write {r : Request} (h : Core.execute program (.sio .write) c = .ok r d) :
    ∃ w, r = .emit w := by
  simp at h
  obtain ⟨w, -, rfl⟩ := h
  exact ⟨w, rfl⟩

end

theorem performs_iff :
    Performs program i c channel halt d channel' ↔ perform program i c channel = (.ok halt d, channel') :=
  ⟨Performs.perform, performs_of_perform⟩

end Session
end PCode
