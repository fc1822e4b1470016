import PCode.Error
/-!
Channels carry words between a running program and its surroundings.
-/

namespace PCode

/-- Both operations may fail with any error, and may change the channel even then. -/
class Channel (σ : Type) where
  read : σ → Except Error Word × σ
  write : Word → σ → Except Error Unit × σ

/-- The errors that belong to channels: one of the medium, and an input that is no word. -/
inductive Error.OfChannel : Error → Prop
  | io (text : String) : OfChannel (.io text)
  | invalidInput (cause : NumeralError) : OfChannel (.invalidInput cause)

/-- What is asked of a channel beyond its operations: it fails with errors of its own only. -/
class LawfulChannel (σ : Type) [Channel σ] : Prop where
  ofChannel_read {c d : σ} {e : Error} : Channel.read c = (.error e, d) → e.OfChannel
  ofChannel_write {w : Word} {c d : σ} {e : Error} : Channel.write w c = (.error e, d) → e.OfChannel

end PCode
