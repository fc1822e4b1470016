import PCode.Proofs.Channel.Mirror
import PCode.Proofs.Channel.Tokens
/-!
What a text channel writes, as something to read: a line for every word, and in it one token that spells
the word.
-/

namespace PCode

namespace Numeral

theorem isDigits_toDigits (n : Nat) : IsDigits (Nat.toDigits 10 n) :=
  ⟨Nat.toDigits_ne_nil, fun _ => Nat.isDigit_of_mem_toDigits (by decide) (by decide)⟩

theorem magnitude_toDigits (n : Nat) : magnitude (Nat.toDigits 10 n) = n := Nat.ofDigitChars_ten_toDigits

theorem toDigits_injective : Function.Injective (Nat.toDigits 10) :=
  Function.LeftInverse.injective magnitude_toDigits

theorem spells_toString (n : Int) : Spells (toString n).toList n := by
  cases n with
  | ofNat n =>
    have h := Spells.plain (isDigits_toDigits n)
    rw [magnitude_toDigits] at h
    simpa [Int.toString_eq_repr, Int.repr] using h
  | negSucc n =>
    have h := Spells.minus (isDigits_toDigits (n + 1))
    have value : -((n + 1 : Nat) : Int) = .negSucc n := rfl
    rw [magnitude_toDigits, value] at h
    simpa [Int.toString_eq_repr, Int.repr] using h

theorem Spells.unique {cs : List Char} {v w : Word} (hv : Spells cs v.toInt) (hw : Spells cs w.toInt) : v = w :=
  Except.ok.inj ((readWord_eq_ok_iff.mpr hv).symm.trans (readWord_eq_ok_iff.mpr hw))

theorem not_blank_of_isDigit {c : Char} (h : c.isDigit) : !Text.isBlank c := by
  rw [Char.isDigit_iff_toNat] at h
  have hc : 48 ≤ c.toNat ∧ c.toNat ≤ 57 := h
  simp [Text.isBlank]
  omega

theorem Spells.solid {cs : List Char} {n : Int} (h : Spells cs n) : Text.Solid cs := by
  refine ⟨h.ne_nil, ?_⟩
  cases h with
  | plain h => exact fun c hc => not_blank_of_isDigit (h.2 c hc)
  | plus h | minus h =>
    refine List.forall_mem_cons.mpr ⟨by decide, ?_⟩
    exact fun c hc => not_blank_of_isDigit (h.2 c hc)

end Numeral

open Numeral

/-- A line for each of the words. -/
def transcript (ws : List Word) : String := String.join (ws.map fun w => s!"{w}\n")

def numeral (w : Word) : List Char := (toString w).toList

theorem spells_numeral (w : Word) : Spells (numeral w) w.toInt := spells_toString w.toInt

theorem numeral_injective : Function.Injective numeral := by
  intro v w h
  exact (spells_numeral v).unique (h ▸ spells_numeral w)

theorem solid_toString (w : Word) : Text.Solid (toString w).toList := (spells_numeral w).solid

theorem toString_inj {v w : Word} : toString v = toString w ↔ v = w := by
  rw [← String.toList_inj]
  exact numeral_injective.eq_iff

theorem toList_line (w : Word) : (s!"{w}\n").toList = numeral w ++ ['\n'] := String.toList_append

theorem transcript_cons (w : Word) (ws : List Word) : transcript (w :: ws) = s!"{w}\n" ++ transcript ws :=
  String.join_cons

theorem transcript_singleton (w : Word) : transcript [w] = s!"{w}\n" := by
  rw [transcript_cons]
  exact String.append_empty

theorem transcript_append (vs ws : List Word) : transcript (vs ++ ws) = transcript vs ++ transcript ws := by
  rw [transcript, List.map_append, String.join_append, transcript, transcript]

theorem toList_transcript_cons (w : Word) (ws : List Word) :
    (transcript (w :: ws)).toList = numeral w ++ '\n' :: (transcript ws).toList := by
  rw [transcript_cons, String.toList_append, toList_line, List.append_assoc, List.singleton_append]

theorem words_transcript (ws : List Word) : Text.words (transcript ws).toList = ws.map numeral := by
  induction ws with
  | nil => exact Text.words_nil
  | cons w ws ih =>
    have hn : Text.isBlank '\n' := by decide
    rw [toList_transcript_cons, Text.words_append_cons hn, Text.words_of_solid (spells_numeral w).solid, ih]
    rfl

theorem spelled_transcript (ws : List Word) : Spelled (Text.words (transcript ws).toList) ws := by
  rw [words_transcript, Spelled, List.forall₂_map_left_iff, List.forall₂_same]
  intro w _
  exact spells_numeral w

theorem transcript_injective : Function.Injective transcript := by
  intro vs ws h
  have hw := words_transcript vs
  rw [h, words_transcript] at hw
  exact (List.map_injective_iff.mpr numeral_injective hw).symm

namespace ByteSource

theorem not_newline_of_spells {cs : List Char} {n : Int} (h : Spells cs n) : (10 : UInt8) ∉ utf8 cs := by
  intro hm
  have hn := h.solid.2 '\n' (newline_mem_utf8 hm)
  exact absurd hn (by decide)

theorem lines_transcript (ws : List Word) :
    lines (ofText (transcript ws)).bytes = ws.map fun w => (ofText s!"{w}\n").bytes := by
  induction ws with
  | nil => rfl
  | cons w ws ih =>
    have hn : String.utf8EncodeChar '\n' = [10] := rfl
    have first := lines_append_newline (not_newline_of_spells (spells_numeral w)) (utf8 (transcript ws).toList)
    rw [ofText_eq] at ih
    rw [ih] at first
    rw [ofText_eq, List.map_cons, ofText_eq, toList_transcript_cons, toList_line]
    simpa [utf8, hn] using first

theorem content_transcript (ws : List Word) :
    content (ofText (transcript ws)).bytes = ws.map fun w => .token (numeral w) := by
  rw [ofText_eq, content_utf8, words_transcript, List.map_map]
  rfl

end ByteSource

theorem Piece.eq_ok_of_answers {w : Word} {r : Except Error Word}
    (h : Answers (some (.token (numeral w))) r) : r = .ok w := by
  cases h with
  | word spelled => rw [spelled.unique (spells_numeral w)]
  | malformed unspelled => exact absurd (spells_numeral w) (unspelled w)

namespace TextChannel

variable {ρ ω : Type} [TextSink ω] {kept : ω → String → Prop} {c : TextChannel ρ ω} {text : String}

theorem write_steady (steady : TextSink.Steady kept) (h : kept c.sink text) (w : Word) :
    (c.write w).1 = .ok () ∧ kept (c.write w).2.sink (text ++ s!"{w}\n") := by
  obtain ⟨written, hw, kw⟩ := steady.write h s!"{w}\n"
  obtain ⟨flushed, hf, kf⟩ := steady.flush kw
  simp only [write, hw, hf]
  exact ⟨trivial, kf⟩

theorem kept_writes (steady : TextSink.Steady kept) (h : kept c.sink text) (ws : List Word) :
    kept (c.writes ws).sink (text ++ transcript ws) := by
  induction ws generalizing c text with
  | nil =>
    have empty : text ++ transcript [] = text := String.append_empty
    rwa [empty]
  | cons w ws ih =>
    have hw := ih (write_steady steady h w).2
    rwa [String.append_assoc, ← transcript_cons] at hw

/-- What the read after `k` others returns, if these are the words to be read. -/
def supply (ws : List Word) (k : Nat) : Except Error Word :=
  match ws[k]? with
  | some w => .ok w
  | none => .error (.io "unexpected end of input")

theorem eq_supply_of_answers {ws : List Word} {k : Nat} {r : Except Error Word}
    (h : Piece.Answers (ws.map fun w => .token (numeral w))[k]? r) : r = supply ws k := by
  rw [List.getElem?_map] at h
  unfold supply
  cases hw : ws[k]? with
  | none =>
    rw [hw] at h
    cases h
    rfl
  | some w =>
    rw [hw] at h
    exact Piece.eq_ok_of_answers h

theorem reads_transcript (ws : List Word) (sink : ω) (gaps : List (List Word)) :
    (ofText (transcript ws) sink).reads gaps = (List.range gaps.length).map (supply ws) := by
  apply List.ext_getElem
  · rw [length_reads, List.length_map, List.length_range]
  · intro k hk _
    have answers := answered_reads gaps (ofText (transcript ws) sink) k _ (List.getElem?_eq_getElem hk)
    have unread : (ofText (transcript ws) sink).left = ws.map fun w => .token (numeral w) :=
      ByteSource.content_transcript ws
    rw [unread] at answers
    rw [List.getElem_map, List.getElem_range]
    exact eq_supply_of_answers answers

/-- The transcript of these words gives the same words back, and no other list has it. -/
structure Legible (kept : ω → String → Prop) (c : TextChannel ρ ω) (ws : List Word) : Prop where
  accepted : ∀ w, ((c.writes ws).write w).1 = .ok ()
  written : kept (c.writes ws).sink (transcript ws)
  lines : ByteSource.lines (ByteSource.ofText (transcript ws)).bytes =
    ws.map fun w => (ByteSource.ofText s!"{w}\n").bytes
  read : ∀ {τ : Type} [TextSink τ] (sink : τ) (gaps : List (List Word)),
    (ofText (transcript ws) sink).reads gaps = (List.range gaps.length).map (supply ws)
  distinct : ∀ vs, transcript vs = transcript ws → vs = ws

theorem legible (steady : TextSink.Steady kept) (empty : kept c.sink "") (ws : List Word) : c.Legible kept ws := by
  have written := kept_writes steady empty ws
  rw [String.empty_append] at written
  constructor
  case accepted =>
    intro w
    exact (write_steady steady written w).1
  case written => exact written
  case lines => exact ByteSource.lines_transcript ws
  case read =>
    intro τ _ sink gaps
    exact reads_transcript ws sink gaps
  case distinct =>
    intro vs h
    exact transcript_injective h

end TextChannel
end PCode
