import PCode.Channel.Basic
import PCode.Text.Blank
/-!
A channel over text. Input is a sequence of blank-separated numerals on any number of lines, output
is one numeral a line. A line is read when the tokens of those before it are used up.
-/

namespace PCode

/-- `next` takes one line, `none` at the end. `remaining` bounds the lines to come. -/
class LineSource (ρ : Type) where
  next : ρ → Except String (Option String) × ρ
  remaining : ρ → Nat
  remaining_lt : ∀ {s t line}, next s = (.ok (some line), t) → remaining t < remaining s

class TextSink (ω : Type) where
  write : String → ω → Except String Unit × ω
  flush : ω → Except String Unit × ω

structure TextChannel (ρ ω : Type) where
  source : ρ
  sink : ω
  pending : List String := []

namespace TextChannel

variable {ρ ω : Type}

def readToken (token : String) : Except Error Word :=
  match Numeral.readWord token.toList with
  | .ok w => .ok w
  | .error e => .error (.invalidInput e)

/-- A token that is no word is used up all the same. -/
def read [LineSource ρ] (c : TextChannel ρ ω) : Except Error Word × TextChannel ρ ω :=
  match c.pending with
  | token :: rest => (readToken token, { c with pending := rest })
  | [] =>
    match _h : LineSource.next c.source with
    | (.error text, source) => (.error (.io text), { c with source })
    | (.ok none, source) => (.error (.io "unexpected end of input"), { c with source })
    | (.ok (some line), source) =>
      read { c with source, pending := (Text.words line.toList).map String.ofList }
termination_by LineSource.remaining c.source
decreasing_by exact LineSource.remaining_lt _h

/-- Each value is flushed. -/
def write [TextSink ω] (w : Word) (c : TextChannel ρ ω) :
    Except Error Unit × TextChannel ρ ω :=
  match TextSink.write s!"{w}\n" c.sink with
  | (.error text, sink) => (.error (.io text), { c with sink })
  | (.ok (), sink) =>
    match TextSink.flush sink with
    | (.error text, sink) => (.error (.io text), { c with sink })
    | (.ok (), sink) => (.ok (), { c with sink })

instance [LineSource ρ] [TextSink ω] : Channel (TextChannel ρ ω) := ⟨read, write⟩

theorem ofChannel_readToken {token : String} {e : Error} (h : readToken token = .error e) :
    e.OfChannel := by
  unfold readToken at h
  split at h
  · cases h
  · cases h
    exact .invalidInput _

theorem ofChannel_read [LineSource ρ] {c d : TextChannel ρ ω} {e : Error} :
    read c = (.error e, d) → e.OfChannel := by
  fun_induction read c with
  | case1 c token rest =>
    intro h
    exact ofChannel_readToken (Prod.mk.inj h).1
  | case2 | case3 =>
    rintro ⟨⟩
    exact .io _
  | case4 _ _ _ _ _ ih => exact ih

theorem ofChannel_write [TextSink ω] {w : Word} {c d : TextChannel ρ ω} {e : Error}
    (h : write w c = (.error e, d)) : e.OfChannel := by
  unfold write at h
  split at h
  · obtain ⟨⟨⟩, -⟩ := Prod.mk.inj h
    exact .io _
  · split at h
    · obtain ⟨⟨⟩, -⟩ := Prod.mk.inj h
      exact .io _
    · cases h

instance [LineSource ρ] [TextSink ω] : LawfulChannel (TextChannel ρ ω) :=
  ⟨ofChannel_read, ofChannel_write⟩

end TextChannel
end PCode
