import PCode.Arithmetic
import PCode.Channel.Basic
import PCode.Instruction.Encoding
import PCode.Proofs.Frame.Link
/-!
The kinds of errors that the parts of a cycle fail with.
-/

namespace PCode

variable {e : Error}

theorem kind_of_exactResult {operation : String} {n : Int} (h : exactResult operation n = .error e) :
    e.kind = .arithmetic := by
  unfold exactResult at h
  split at h <;> cases h
  rfl

theorem Unary.kind_of_eval {op : Unary} {x : Word} (h : op.eval x = .error e) : e.kind = .arithmetic := by
  cases op with
  | negate => exact kind_of_exactResult h
  | odd => cases h

theorem Binary.kind_of_eval {op : Binary} {x y : Word} (h : op.eval x y = .error e) :
    e.kind = .arithmetic := by
  cases op with
  | plus | minus | times => exact kind_of_exactResult h
  | quotient =>
    simp only [eval] at h
    split at h
    · obtain rfl := Except.error.inj h
      rfl
    · exact kind_of_exactResult h
  | remainder =>
    simp only [eval] at h
    split at h
    · obtain rfl := Except.error.inj h
      rfl
    · rcases bind_eq_error.mp h with h | ⟨-, -, h⟩
      · exact kind_of_exactResult h
      · exact kind_of_exactResult h
  | _ => cases h

theorem Error.OfChannel.kind_eq (h : e.OfChannel) : e.kind = .io := by
  cases h <;> rfl

namespace Frame

variable {s : Stack} {base slot level : Nat}

theorem kind_of_link (h : link s base slot = .error e) : e.kind = .invalidAddress := by
  rcases link_eq_error h with ⟨-, rfl⟩ | ⟨w, -, -, rfl⟩ <;> rfl

theorem kind_of_climb {exhausted : Error} (hx : exhausted.kind = .invalidAddress)
    (h : climb s exhausted level base = .error e) : e.kind = .invalidAddress := by
  induction level generalizing base with
  | zero => cases h
  | succ level ih =>
    simp only [climb] at h
    split at h
    · exact Except.error.inj h ▸ hx
    · rcases bind_eq_error.mp h with h | ⟨next, -, h⟩
      · exact kind_of_link h
      · exact ih h

theorem kind_of_resolve (h : resolve s base level = .error e) : e.kind = .invalidAddress :=
  kind_of_climb rfl h

end Frame

inductive Error.OfDecoding : Error → Prop
  | opcode {v} : OfDecoding (.invalidOpcode v)
  | selector {op w} : OfDecoding (.invalidSubOperation op w)
  | operand {op field w} : OfDecoding (.invalidOperand op field w)

theorem Error.OfDecoding.kind_ne_cancelled (h : e.OfDecoding) : e.kind ≠ .cancelled := by
  cases h <;> nofun

theorem OpCode.ofDecoding {v : UInt8} (h : OpCode.decode v = .error e) : e.OfDecoding := by
  unfold OpCode.decode at h
  split at h <;> cases h
  exact .opcode

theorem Operation.ofDecoding {w : Word} (h : Operation.decode w = .error e) : e.OfDecoding := by
  unfold Operation.decode at h
  split at h <;> cases h
  exact .selector

theorem Service.ofDecoding {w : Word} (h : Service.decode w = .error e) : e.OfDecoding := by
  unfold Service.decode at h
  split at h <;> cases h
  exact .selector

namespace Triple

variable {t : Triple} {op : OpCode} {w : Word}

theorem index_ofDecoding {field : String} (h : index op field w = .error e) : e.OfDecoding := by
  unfold index at h
  split at h <;> cases h
  exact .operand

theorem indices_ofDecoding {make : Nat → Nat → Instruction} (h : t.indices op make = .error e) :
    e.OfDecoding := by
  rcases bind_eq_error.mp h with h | ⟨level, -, h⟩
  · exact index_ofDecoding h
  · rcases bind_eq_error.mp h with h | ⟨address, -, h⟩
    · exact index_ofDecoding h
    · cases h

theorem decode_ofDecoding (h : t.decode = .error e) : e.OfDecoding := by
  rcases bind_eq_error.mp h with h | ⟨op, -, h⟩
  · exact OpCode.ofDecoding h
  · cases op with
    | lit => cases h
    | lod | sto | cal => exact indices_ofDecoding h
    | opr =>
      rcases bind_eq_error.mp h with h | ⟨operation, -, h⟩
      · exact Operation.ofDecoding h
      · cases h
    | sio =>
      rcases bind_eq_error.mp h with h | ⟨service, -, h⟩
      · exact Service.ofDecoding h
      · cases h
    | inc | jmp | jpc | lda | sta =>
      rcases bind_eq_error.mp h with h | ⟨n, -, h⟩
      · exact index_ofDecoding h
      · cases h

end Triple
end PCode
