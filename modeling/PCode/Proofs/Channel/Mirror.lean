import PCode.Channel.Queue
import PCode.Proofs.Channel.Lines
import PCode.Proofs.Channel.Numeral
import Mathlib.Data.List.Forall2
/-!
A text channel that stands for a queue. Its tokens, those of the current line first, spell the words in
the queue, and its sink has a line for every word written.
-/

namespace PCode

/-- `kept` says what a sink holds. None of the sinks it speaks of ever fails. -/
structure TextSink.Steady {ω : Type} [TextSink ω] (kept : ω → String → Prop) : Prop where
  write : ∀ {sink text}, kept sink text → ∀ piece, ∃ sink',
    TextSink.write piece sink = (.ok (), sink') ∧ kept sink' (text ++ piece)
  flush : ∀ {sink text}, kept sink text → ∃ sink', TextSink.flush sink = (.ok (), sink') ∧ kept sink' text

def BoundedSink.Holds (sink : BoundedSink) (text : String) : Prop := sink = { written := text }

theorem BoundedSink.steady : TextSink.Steady BoundedSink.Holds where
  write := by
    rintro _ text rfl piece
    exact ⟨_, rfl, rfl⟩
  flush := by
    rintro _ text rfl
    exact ⟨_, rfl, rfl⟩

def QueueChannel.lines (q : QueueChannel) : String := String.join (q.output.toList.map fun w => s!"{w}\n")

theorem QueueChannel.lines_write (w : Word) (q : QueueChannel) : (q.write w).2.lines = q.lines ++ s!"{w}\n" := by
  simp [lines, write]

/-- These tokens spell these words, one each. -/
def Spelled (tokens : List (List Char)) (words : List Word) : Prop :=
  List.Forall₂ (fun token w => Numeral.Spells token w.toInt) tokens words

namespace TextChannel

variable {ω : Type}

def ofText (text : String) (sink : ω) : TextChannel ByteSource ω := ⟨.ofText text, sink, []⟩

structure Mirrors (kept : ω → String → Prop) (c : TextChannel ByteSource ω) (q : QueueChannel) : Prop where
  input : ∃ rest, c.source = ⟨ByteSource.utf8 rest⟩ ∧
    Spelled (c.pending.map String.toList ++ Text.words rest) q.input
  output : kept c.sink q.lines

variable {kept : ω → String → Prop} {c : TextChannel ByteSource ω} {q : QueueChannel}

theorem mirrors_ofText {text : String} {input : List Word} {sink : ω} (empty : kept sink "")
    (h : Spelled (Text.words text.toList) input) : Mirrors kept (ofText text sink) (.ofInput input) where
  input := ⟨text.toList, ByteSource.ofText_eq text, h⟩
  output := empty

theorem Mirrors.write [TextSink ω] (steady : TextSink.Steady kept) (h : Mirrors kept c q) (w : Word) :
    ∃ c', c.write w = (.ok (), c') ∧ Mirrors kept c' (q.write w).2 := by
  obtain ⟨written, hw, kw⟩ := steady.write h.output s!"{w}\n"
  obtain ⟨flushed, hf, kf⟩ := steady.flush kw
  refine ⟨{ c with sink := flushed }, ?_, h.input, ?_⟩
  · simp only [TextChannel.write, hw, hf]
  · rwa [QueueChannel.lines_write]

theorem readToken_of_spells {token : String} {w : Word} (h : Numeral.Spells token.toList w.toInt) :
    readToken token = .ok w := by
  simp only [readToken, Numeral.readWord_eq_ok_iff.mpr h]

/-- The induction is on the lines that are read until a token is found. -/
theorem Mirrors.read (h : Mirrors kept c q) :
    (∃ w c' q', c.read = (.ok w, c') ∧ q.read = (.ok w, q') ∧ Mirrors kept c' q') ∨
      ∃ c', q.input = [] ∧ c.read = (.error (.io "unexpected end of input"), c') ∧
        q.read = (.error (.io "input exhausted"), q) ∧ Mirrors kept c' q := by
  obtain ⟨⟨rest, hs, spelled⟩, output⟩ := h
  fun_induction TextChannel.read c generalizing rest with
  | case1 c token tokens hp =>
    rw [hp, List.map_cons, List.cons_append] at spelled
    left
    cases hq : q.input with
    | nil =>
      rw [hq] at spelled
      cases spelled
    | cons w ws =>
      rw [hq] at spelled
      cases spelled with
      | cons head tail =>
        refine ⟨w, { c with pending := tokens }, { q with input := ws }, ?_, ?_, ⟨rest, hs, tail⟩, output⟩
        · rw [readToken_of_spells head]
        · simp only [QueueChannel.read, hq]
  | case2 c hp text source hn =>
    have hn : ByteSource.next c.source = (.error text, source) := hn
    rw [hs] at hn
    obtain ⟨-, hr, -⟩ | ⟨line, rest', hr, -, -⟩ := ByteSource.next_utf8 hn
    · cases hr
    · cases hr
  | case3 c hp source hn =>
    have hn : ByteSource.next c.source = (.ok none, source) := hn
    rw [hs] at hn
    obtain ⟨rfl, -, hsource⟩ | ⟨line, rest', hr, -, -⟩ := ByteSource.next_utf8 hn
    · rw [hp, Text.words_nil, List.map_nil, List.append_nil] at spelled
      have hq : q.input = [] := List.forall₂_nil_left_iff.mp spelled
      right
      refine ⟨{ c with source }, hq, rfl, ?_, ⟨[], hsource, ?_⟩, output⟩
      · simp only [QueueChannel.read, hq]
      · rwa [hp, Text.words_nil, List.map_nil, List.append_nil]
    · cases hr
  | case4 c hp line source hn ih =>
    have hn : ByteSource.next c.source = (.ok (some line), source) := hn
    rw [hs] at hn
    obtain ⟨-, hr, -⟩ | ⟨chars, rest', hr, hsource, hw⟩ := ByteSource.next_utf8 hn
    · cases hr
    · cases hr
      apply ih output rest' hsource
      rw [hp, List.map_nil, List.nil_append, ← hw] at spelled
      simpa using spelled

end TextChannel
end PCode
