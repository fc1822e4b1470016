import PCode.Proofs.Channel.Lines
import PCode.Proofs.Channel.Numeral
import Mathlib.Data.List.Forall2
import Mathlib.Data.List.TakeWhile
/-!
What the reads of a text channel return. The input is cut into lines and each line into tokens; every
token, and every line that is no text, answers one read, and when they are used up the input has ended.
-/

namespace PCode

namespace Text

def Solid (token : List Char) : Prop := token ≠ [] ∧ ∀ c ∈ token, !isBlank c

/-- The tokens of a text in order. Only blanks are left out, and no token can be made longer. -/
inductive Separated : List Char → List (List Char) → Prop
  | nil : Separated [] []
  | blank {b cs tokens} (hb : isBlank b) (h : Separated cs tokens) : Separated (b :: cs) tokens
  | token {token cs tokens} (solid : Solid token) (stop : ∀ c ∈ cs.head?, isBlank c)
      (h : Separated cs tokens) : Separated (token ++ cs) (token :: tokens)

variable {cs token : List Char} {tokens : List (List Char)} {b : Char}

theorem words_cons_of_blank (hb : isBlank b) (cs : List Char) : words (b :: cs) = words cs :=
  words_eq_of_dropWhile_eq (List.dropWhile_cons_of_pos hb)

theorem words_of_solid (h : Solid token) : words token = [token] := by
  obtain ⟨c, rest, rfl⟩ := List.exists_cons_of_ne_nil h.1
  obtain ⟨hc, hrest⟩ := List.forall_mem_cons.mp h.2
  have run : (c :: rest).dropWhile isBlank = c :: rest := List.dropWhile_cons_of_neg (by simpa using hc)
  have after : rest.dropWhile (fun d => !isBlank d) = [] := List.dropWhile_eq_nil_iff.mpr hrest
  have whole := List.takeWhile_append_dropWhile (p := fun d => !isBlank d) (l := rest)
  rw [after, List.append_nil] at whole
  rw [words_of_run run, after, whole, words_nil]

theorem Separated.eq_words (h : Separated cs tokens) : tokens = words cs := by
  induction h with
  | nil => exact words_nil.symm
  | blank hb _ ih => rw [words_cons_of_blank hb, ih]
  | @token token cs tokens solid stop _ ih =>
    cases cs with
    | nil => rw [List.append_nil, words_of_solid solid, ih, words_nil]
    | cons b cs =>
      have hb := stop b rfl
      rw [words_append_cons hb, words_of_solid solid, ih, words_cons_of_blank hb, List.singleton_append]

theorem Separated.blanks {bs : List Char} (hbs : ∀ b ∈ bs, isBlank b) (h : Separated cs tokens) :
    Separated (bs ++ cs) tokens := by
  induction bs with
  | nil => exact h
  | cons b bs ih =>
    obtain ⟨hb, hbs⟩ := List.forall_mem_cons.mp hbs
    exact .blank hb (ih hbs)

theorem separated_words (cs : List Char) : Separated cs (words cs) := by
  have margin (cs : List Char) : ∀ b ∈ cs.takeWhile isBlank, isBlank b := fun _ => List.mem_takeWhile_imp
  induction cs using words.induct with
  | case1 cs h =>
    have hs := Separated.nil.blanks (margin cs)
    rw [← h, List.takeWhile_append_dropWhile] at hs
    rwa [words_of_blank h]
  | case2 cs c rest h ih =>
    have hc : !isBlank c := by
      have head := List.head?_dropWhile_not isBlank cs
      rw [h, List.head?_cons] at head
      simpa using head
    have solid : Solid (c :: rest.takeWhile (fun d => !isBlank d)) := by
      refine ⟨List.cons_ne_nil _ _, List.forall_mem_cons.mpr ⟨hc, ?_⟩⟩
      intro d hd
      exact List.mem_takeWhile_imp (p := fun d => !isBlank d) hd
    have stop : ∀ d ∈ (rest.dropWhile (fun d => !isBlank d)).head?, isBlank d := by
      intro d hd
      have head := List.head?_dropWhile_not (fun d => !isBlank d) rest
      rw [Option.mem_def.mp hd] at head
      simpa using head
    have hs := (Separated.token solid stop ih).blanks (margin cs)
    rw [List.cons_append, List.takeWhile_append_dropWhile, ← h, List.takeWhile_append_dropWhile] at hs
    rwa [words_of_run h]

theorem separated_iff : Separated cs tokens ↔ tokens = words cs := by
  refine ⟨Separated.eq_words, ?_⟩
  rintro rfl
  exact separated_words cs

end Text

/-- What one read takes from its input. -/
inductive Piece where
  | token (text : List Char)
  | garbled

/-- What a read of a piece returns, `none` for the end of the input. -/
inductive Piece.Answers : Option Piece → Except Error Word → Prop
  | word {token w} (spelled : Numeral.Spells token w.toInt) : Answers (some (.token token)) (.ok w)
  | malformed {token cause} (unspelled : ∀ w : Word, ¬Numeral.Spells token w.toInt) :
    Answers (some (.token token)) (.error (.invalidInput cause))
  | garbled : Answers (some .garbled) (.error (.io "stream did not contain valid UTF-8"))
  | ended : Answers none (.error (.io "unexpected end of input"))

/-- Each of the results is that of one piece, and the rest are those of the end of the input. -/
def Piece.Answered (pieces : List Piece) (results : List (Except Error Word)) : Prop :=
  ∀ (k : Nat) r, results[k]? = some r → Answers pieces[k]? r

namespace ByteSource

/-- Cut after each newline. -/
def lines : List UInt8 → List (List UInt8)
  | [] => []
  | b :: bs =>
    if b = 10 then [b] :: lines bs
    else
      match lines bs with
      | [] => [[b]]
      | line :: rest => (b :: line) :: rest

/-- The pieces of a line. -/
inductive Carries (line : List UInt8) : List Piece → Prop
  | text {text tokens} (valid : String.fromUTF8? line.toByteArray = some text)
      (separated : Text.Separated text.toList tokens) : Carries line (tokens.map .token)
  | garbled (invalid : String.fromUTF8? line.toByteArray = none) : Carries line [.garbled]

def pieces (line : List UInt8) : List Piece :=
  match String.fromUTF8? line.toByteArray with
  | some text => (Text.words text.toList).map .token
  | none => [.garbled]

theorem carries_pieces (line : List UInt8) : Carries line (pieces line) := by
  unfold pieces
  split
  next text h => exact .text h (Text.separated_words text.toList)
  next h => exact .garbled h

theorem lines_cons (b : UInt8) (bs : List UInt8) :
    lines (b :: bs) = (splitLine (b :: bs)).1 :: lines (splitLine (b :: bs)).2 := by
  induction bs generalizing b with
  | nil =>
    by_cases hb : b = 10
    · simp [lines, splitLine, hb]
    · simp [lines, splitLine, hb]
  | cons c bs ih =>
    rw [lines, splitLine]
    by_cases hb : b = 10
    · rw [if_pos hb, if_pos hb]
    · rw [if_neg hb, if_neg hb, ih c]

theorem lines_append_newline {line : List UInt8} (h : (10 : UInt8) ∉ line) (rest : List UInt8) :
    lines (line ++ 10 :: rest) = (line ++ [10]) :: lines rest := by
  have hs := splitLine_of_newline h rest
  obtain ⟨b, bs, hb⟩ := List.exists_cons_of_ne_nil (List.append_ne_nil_of_right_ne_nil line (List.cons_ne_nil 10 rest))
  rw [hb] at hs ⊢
  rw [lines_cons, hs]

theorem pieces_of_valid {line : List UInt8} {text : String} (h : String.fromUTF8? line.toByteArray = some text) :
    pieces line = (Text.words text.toList).map .token := by
  simp only [pieces, h]

theorem pieces_of_invalid {line : List UInt8} (h : String.fromUTF8? line.toByteArray = none) :
    pieces line = [.garbled] := by
  simp only [pieces, h]

def content (bs : List UInt8) : List Piece := (lines bs).flatMap pieces

theorem content_cons (b : UInt8) (bs : List UInt8) :
    content (b :: bs) = pieces (splitLine (b :: bs)).1 ++ content (splitLine (b :: bs)).2 := by
  rw [content, lines_cons, List.flatMap_cons, content]

/-- A valid stream holds the tokens of its text, wherever its lines end. -/
theorem content_utf8 (cs : List Char) : content (utf8 cs) = (Text.words cs).map .token := by
  cases hb : utf8 cs with
  | nil =>
    rw [utf8_eq_nil_iff.mp hb, Text.words_nil]
    rfl
  | cons b bs =>
    obtain ⟨line, rest, hs, hw⟩ := splitLine_utf8 cs
    have shorter : (utf8 rest).length < (utf8 cs).length := by
      have h := length_splitLine_snd b bs
      rwa [← hb, hs] at h
    have first := pieces_of_valid (fromUTF8?_utf8 line)
    rw [String.toList_ofList] at first
    rw [content_cons, ← hb, hs, first, content_utf8 rest, ← hw, List.map_append]
termination_by (utf8 cs).length

theorem eq_utf8_of_valid {bs : List UInt8} {text : String} (h : String.fromUTF8? bs.toByteArray = some text) :
    bs = utf8 text.toList := by
  unfold String.fromUTF8? at h
  split at h
  next valid =>
    obtain rfl := Option.some.inj h
    have same := toByteArray_utf8 (String.fromUTF8 bs.toByteArray valid).toList
    rw [String.ofList_toList] at same
    have data := congrArg (fun a => a.data.toList) same
    have bytes : (String.fromUTF8 bs.toByteArray valid).toByteArray = bs.toByteArray := rfl
    simpa [bytes] using data.symm
  next => cases h

theorem content_of_next {s t : ByteSource} {r : Except String (Option String)} (h : next s = (r, t)) :
    (r = .ok none ∧ content s.bytes = [] ∧ t = s) ∨
      (∃ text, r = .ok (some text) ∧ content s.bytes = (Text.words text.toList).map .token ++ content t.bytes) ∨
      r = .error "stream did not contain valid UTF-8" ∧ content s.bytes = .garbled :: content t.bytes := by
  unfold next at h
  split at h
  next hs =>
    cases h
    exact .inl ⟨rfl, congrArg content hs, rfl⟩
  next b bs hs =>
    right
    rw [hs, content_cons]
    split at h
    next text valid =>
      cases h
      left
      exact ⟨text, rfl, congrArg (· ++ _) (pieces_of_valid valid)⟩
    next invalid =>
      cases h
      right
      exact ⟨rfl, congrArg (· ++ _) (pieces_of_invalid invalid)⟩

end ByteSource

namespace TextChannel

variable {ρ ω : Type} [TextSink ω]

/-- Successive writes, whether they succeed or not. -/
def writes (ws : List Word) (c : TextChannel ρ ω) : TextChannel ρ ω := ws.foldl (fun c w => (c.write w).2) c

/-- What successive reads return, each of them after some writes. -/
def reads [LineSource ρ] : List (List Word) → TextChannel ρ ω → List (Except Error Word)
  | [], _ => []
  | ws :: gaps, c => (c.writes ws).read.1 :: reads gaps (c.writes ws).read.2

variable {c : TextChannel ByteSource ω}

def ofBytes (bs : List UInt8) (sink : ω) : TextChannel ByteSource ω := ⟨⟨bs⟩, sink, []⟩

/-- The pieces that are still to be read. -/
def left (c : TextChannel ByteSource ω) : List Piece :=
  c.pending.map (fun token => .token token.toList) ++ ByteSource.content c.source.bytes

theorem left_write (w : Word) (c : TextChannel ByteSource ω) : (c.write w).2.left = c.left := by
  unfold write
  split
  · rfl
  · split <;> rfl

theorem left_writes (ws : List Word) (c : TextChannel ByteSource ω) : (c.writes ws).left = c.left := by
  induction ws generalizing c with
  | nil => rfl
  | cons w ws ih =>
    rw [writes, List.foldl_cons]
    exact (ih _).trans (left_write w c)

theorem answers_readToken (token : String) : Piece.Answers (some (.token token.toList)) (readToken token) := by
  unfold readToken
  split
  next w hw => exact .word (Numeral.readWord_eq_ok_iff.mp hw)
  next e he =>
    apply Piece.Answers.malformed
    intro w spelled
    rw [Numeral.readWord_eq_ok_iff.mpr spelled] at he
    cases he

omit [TextSink ω] in
/-- The induction is on the lines that are read until a piece is found. -/
theorem answers_read (c : TextChannel ByteSource ω) : Piece.Answers c.left.head? c.read.1 ∧ c.read.2.left = c.left.tail := by
  fun_induction TextChannel.read c with
  | case1 c token tokens hp =>
    rw [left, hp]
    exact ⟨answers_readToken token, rfl⟩
  | case2 c hp text source hn =>
    have hn : ByteSource.next c.source = (.error text, source) := hn
    obtain ⟨hr, -⟩ | ⟨_, hr, -⟩ | ⟨hr, hc⟩ := ByteSource.content_of_next hn
    · cases hr
    · cases hr
    · cases hr
      rw [left, hp, hc]
      exact ⟨.garbled, rfl⟩
  | case3 c hp source hn =>
    have hn : ByteSource.next c.source = (.ok none, source) := hn
    obtain ⟨-, hc, rfl⟩ | ⟨_, hr, -⟩ | ⟨hr, -⟩ := ByteSource.content_of_next hn
    · have empty : c.left = [] := by rw [left, hp, hc]; rfl
      rw [empty]
      exact ⟨.ended, rfl⟩
    · cases hr
    · cases hr
  | case4 c hp line source hn ih =>
    have hn : ByteSource.next c.source = (.ok (some line), source) := hn
    obtain ⟨hr, -⟩ | ⟨_, hr, hc⟩ | ⟨hr, -⟩ := ByteSource.content_of_next hn
    · cases hr
    · cases hr
      have same : c.left = left { c with source, pending := (Text.words line.toList).map String.ofList } := by
        rw [left, hp, hc, left]
        simp
      rwa [same]
    · cases hr

theorem length_reads (gaps : List (List Word)) (c : TextChannel ByteSource ω) : (c.reads gaps).length = gaps.length := by
  induction gaps generalizing c with
  | nil => rfl
  | cons ws gaps ih => rw [reads, List.length_cons, List.length_cons, ih]

theorem answered_reads (gaps : List (List Word)) (c : TextChannel ByteSource ω) : Piece.Answered c.left (c.reads gaps) := by
  intro k r h
  induction gaps generalizing c k with
  | nil => cases h
  | cons ws gaps ih =>
    obtain ⟨first, later⟩ := answers_read (c.writes ws)
    rw [left_writes] at first later
    cases k with
    | zero =>
      obtain rfl := Option.some.inj h
      rwa [← List.head?_eq_getElem?]
    | succ k =>
      have hk := ih _ k h
      rwa [later, List.getElem?_tail] at hk

/-- What reads of these bytes return, line by line, and as one text if they are one. -/
structure Delivered (bs : List UInt8) (gaps : List (List Word)) (results : List (Except Error Word)) :
    Prop where
  count : results.length = gaps.length
  lines : ∃ parts, List.Forall₂ ByteSource.Carries (ByteSource.lines bs) parts ∧ Piece.Answered parts.flatten results
  text : ∀ text, String.fromUTF8? bs.toByteArray = some text →
    ∃ tokens, (∀ ts, Text.Separated text.toList ts ↔ ts = tokens) ∧ Piece.Answered (tokens.map .token) results

theorem delivered_reads (bs : List UInt8) (sink : ω) (gaps : List (List Word)) :
    Delivered bs gaps ((ofBytes bs sink).reads gaps) := by
  have answered : Piece.Answered (ByteSource.content bs) ((ofBytes bs sink).reads gaps) := answered_reads gaps _
  constructor
  case count => exact length_reads gaps _
  case lines =>
    refine ⟨(ByteSource.lines bs).map ByteSource.pieces, ?_, ?_⟩
    · rw [List.forall₂_map_right_iff, List.forall₂_same]
      intro line _
      exact ByteSource.carries_pieces line
    · rwa [← List.flatMap_def]
  case text =>
    intro text valid
    refine ⟨Text.words text.toList, fun _ => Text.separated_iff, ?_⟩
    rwa [← ByteSource.content_utf8, ← ByteSource.eq_utf8_of_valid valid]

end TextChannel
end PCode
