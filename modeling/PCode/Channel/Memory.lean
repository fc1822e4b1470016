import PCode.Channel.Text
/-!
The two ends of a text channel in memory: bytes to read lines from, and a text that takes what is
written up to a limit.
-/

namespace PCode

structure ByteSource where
  bytes : List UInt8
  deriving DecidableEq

namespace ByteSource

/-- The first line, its newline included, and the bytes after it. -/
def splitLine : List UInt8 → List UInt8 × List UInt8
  | [] => ([], [])
  | b :: bs => if b = 10 then ([b], bs) else (b :: (splitLine bs).1, (splitLine bs).2)

theorem splitLine_append (bs : List UInt8) : (splitLine bs).1 ++ (splitLine bs).2 = bs := by
  induction bs with
  | nil => rfl
  | cons b bs ih =>
    unfold splitLine
    split
    · rfl
    · simpa using ih

theorem splitLine_fst_ne_nil (b : UInt8) (bs : List UInt8) : (splitLine (b :: bs)).1 ≠ [] := by
  unfold splitLine
  split <;> simp

theorem length_splitLine_snd (b : UInt8) (bs : List UInt8) :
    (splitLine (b :: bs)).2.length < (b :: bs).length := by
  have h := congrArg List.length (splitLine_append (b :: bs))
  have := List.length_pos_iff.2 (splitLine_fst_ne_nil b bs)
  rw [List.length_append] at h
  omega

/-- A line that is not valid UTF-8 fails and is used up. -/
def next (s : ByteSource) : Except String (Option String) × ByteSource :=
  match s.bytes with
  | [] => (.ok none, s)
  | b :: bs =>
    let rest := (splitLine (b :: bs)).2
    match String.fromUTF8? (splitLine (b :: bs)).1.toByteArray with
    | some text => (.ok (some text), ⟨rest⟩)
    | none => (.error "stream did not contain valid UTF-8", ⟨rest⟩)

theorem length_next {s t : ByteSource} {line : String} (h : next s = (.ok (some line), t)) :
    t.bytes.length < s.bytes.length := by
  unfold next at h
  split at h
  · simp at h
  · next b bs hs =>
    rw [hs]
    split at h
    · rw [← (Prod.mk.inj h).2]
      exact length_splitLine_snd b bs
    · simp at h

instance : LineSource ByteSource := ⟨next, fun s => s.bytes.length, length_next⟩

end ByteSource

/-- Holds at most `limit` bytes of ASCII text. `flushFailure` is what every flush fails with. -/
structure BoundedSink where
  written : String := ""
  limit : Option Nat := none
  flushFailure : Option String := none
  deriving DecidableEq

namespace BoundedSink

/-- What does not fit is cut off. -/
def write (text : String) (s : BoundedSink) : Except String Unit × BoundedSink :=
  let whole := s.written ++ text
  match s.limit with
  | none => (.ok (), { s with written := whole })
  | some limit =>
    if whole.length ≤ limit then (.ok (), { s with written := whole })
    else
      (.error "failed to write whole buffer",
        { s with written := String.ofList (whole.toList.take limit) })

def flush (s : BoundedSink) : Except String Unit × BoundedSink :=
  match s.flushFailure with
  | none => (.ok (), s)
  | some text => (.error text, s)

instance : TextSink BoundedSink := ⟨write, flush⟩

end BoundedSink
end PCode
