import PCode.Channel.Memory
/-!
Texts read line by line. No word of a text and no character of its encoding goes across the end of a
line, so that the lines of a text have the words that it has.
-/

namespace PCode

namespace Text

variable {cs : List Char} {b c : Char}

theorem words_of_blank (h : cs.dropWhile isBlank = []) : words cs = [] := by
  rw [words]
  split
  next => rfl
  next hd =>
    rw [h] at hd
    cases hd

theorem words_of_run {rest : List Char} (h : cs.dropWhile isBlank = c :: rest) :
    words cs = (c :: rest.takeWhile (fun d => !isBlank d)) :: words (rest.dropWhile (fun d => !isBlank d)) := by
  rw [words]
  split
  next hd =>
    rw [h] at hd
    cases hd
  next hd =>
    rw [h] at hd
    cases hd
    rfl

theorem words_nil : words [] = [] := words_of_blank rfl

theorem words_eq_of_dropWhile_eq {ds : List Char} (h : cs.dropWhile isBlank = ds.dropWhile isBlank) :
    words cs = words ds := by
  cases hd : ds.dropWhile isBlank with
  | nil => rw [words_of_blank (h.trans hd), words_of_blank hd]
  | cons c rest => rw [words_of_run (h.trans hd), words_of_run hd]

/-- A run that has to end at `b` is the same whatever comes after. -/
theorem takeWhile_append_cons {p : Char → Bool} (hb : p b = false) (xs ys : List Char) :
    (xs ++ b :: ys).takeWhile p = xs.takeWhile p ∧ (xs ++ b :: ys).dropWhile p = xs.dropWhile p ++ b :: ys := by
  induction xs with
  | nil => simp [hb]
  | cons x xs ih =>
    cases hx : p x with
    | false => simp [hx]
    | true =>
      simp only [List.cons_append, List.takeWhile_cons, List.dropWhile_cons, hx, if_true]
      exact ⟨congrArg (x :: ·) ih.1, ih.2⟩

theorem words_append_cons (hb : isBlank b) (xs ys : List Char) :
    words (xs ++ b :: ys) = words xs ++ words ys := by
  induction xs using words.induct with
  | case1 xs h =>
    rw [words_of_blank h, List.nil_append]
    apply words_eq_of_dropWhile_eq
    rw [List.dropWhile_append, h, List.isEmpty_nil, if_pos rfl, List.dropWhile_cons, if_pos hb]
  | case2 xs c rest h ih =>
    have hd : (xs ++ b :: ys).dropWhile isBlank = c :: (rest ++ b :: ys) := by
      rw [List.dropWhile_append, h]
      rfl
    obtain ⟨run, after⟩ := takeWhile_append_cons (p := fun d => !isBlank d) (by rw [hb]; rfl) rest ys
    rw [words_of_run hd, words_of_run h, run, after, ih, List.cons_append]

theorem words_append_newline (xs ys : List Char) : words (xs ++ ['\n']) ++ words ys = words (xs ++ '\n' :: ys) := by
  have hb : isBlank '\n' := by decide
  rw [words_append_cons hb, words_append_cons hb, words_nil, List.append_nil]

end Text

namespace ByteSource

def utf8 (cs : List Char) : List UInt8 := cs.flatMap String.utf8EncodeChar

/-- A source that has nothing but the bytes of a text. -/
def ofText (text : String) : ByteSource := ⟨text.toUTF8.data.toList⟩

variable {cs : List Char}

theorem toByteArray_utf8 (cs : List Char) : (utf8 cs).toByteArray = (String.ofList cs).toByteArray :=
  String.toByteArray_ofList.symm

theorem ofText_eq (text : String) : ofText text = ⟨utf8 text.toList⟩ := by
  have h : text.toUTF8 = (utf8 text.toList).toByteArray := by
    rw [toByteArray_utf8, String.ofList_toList]
    rfl
  rw [ofText, h, List.data_toByteArray]

theorem utf8_eq_nil_iff : utf8 cs = [] ↔ cs = [] := by
  rw [utf8, List.flatMap_eq_nil_iff]
  constructor
  · intro h
    apply List.eq_nil_iff_forall_not_mem.mpr
    intro c hc
    exact String.utf8EncodeChar_ne_nil (h c hc)
  · rintro rfl c hc
    cases hc

theorem fromUTF8?_utf8 (cs : List Char) : String.fromUTF8? (utf8 cs).toByteArray = some (String.ofList cs) := by
  have h := (String.ofList cs).isValidUTF8
  rw [toByteArray_utf8, String.fromUTF8?, dif_pos h]
  rfl

/-- Every byte of a character beyond ASCII is at least 0x80. -/
theorem newline_mem_utf8EncodeChar {c : Char} (h : (10 : UInt8) ∈ String.utf8EncodeChar c) : c = '\n' := by
  have byte {n : Nat} (h : (10 : UInt8) = UInt8.ofNat n) : n % 256 = 10 := by
    rw [← UInt8.toNat_ofNat', ← h]
    rfl
  have ascii : c.toNat = 10 := by
    change c.val.toNat = 10
    unfold String.utf8EncodeChar at h
    generalize c.val.toNat = v at h ⊢
    simp only at h
    split at h
    next =>
      have := byte (List.mem_singleton.mp h)
      omega
    next =>
      exfalso
      split at h
      · simp only [List.mem_cons, List.not_mem_nil, or_false] at h
        rcases h with h | h <;> have := byte h <;> omega
      · split at h
        · simp only [List.mem_cons, List.not_mem_nil, or_false] at h
          rcases h with h | h | h <;> have := byte h <;> omega
        · simp only [List.mem_cons, List.not_mem_nil, or_false] at h
          rcases h with h | h | h | h <;> have := byte h <;> omega
  rw [← Char.ofNat_toNat c, ascii]

theorem newline_mem_utf8 (h : (10 : UInt8) ∈ utf8 cs) : '\n' ∈ cs := by
  obtain ⟨c, hc, hb⟩ := List.mem_flatMap.mp h
  rwa [← newline_mem_utf8EncodeChar hb]

theorem splitLine_of_newline {bs : List UInt8} (h : (10 : UInt8) ∉ bs) (rest : List UInt8) :
    splitLine (bs ++ 10 :: rest) = (bs ++ [10], rest) := by
  induction bs with
  | nil => rfl
  | cons b bs ih =>
    obtain ⟨hb, hbs⟩ := not_or.mp (mt List.mem_cons.mpr h)
    rw [List.cons_append, splitLine, if_neg (Ne.symm hb), ih hbs, List.cons_append]

theorem splitLine_of_not_mem {bs : List UInt8} (h : (10 : UInt8) ∉ bs) : splitLine bs = (bs, []) := by
  induction bs with
  | nil => rfl
  | cons b bs ih =>
    obtain ⟨hb, hbs⟩ := not_or.mp (mt List.mem_cons.mpr h)
    rw [splitLine, if_neg (Ne.symm hb), ih hbs]

theorem splitLine_utf8 (cs : List Char) :
    ∃ line rest, splitLine (utf8 cs) = (utf8 line, utf8 rest) ∧
      Text.words line ++ Text.words rest = Text.words cs := by
  by_cases h : '\n' ∈ cs
  · obtain ⟨xs, ys, rfl, hxs⟩ := List.eq_append_cons_of_mem h
    refine ⟨xs ++ ['\n'], ys, ?_, Text.words_append_newline xs ys⟩
    have hn : String.utf8EncodeChar '\n' = [10] := rfl
    have hs := splitLine_of_newline (mt newline_mem_utf8 hxs) (utf8 ys)
    simpa [utf8, hn] using hs
  · refine ⟨cs, [], splitLine_of_not_mem (mt newline_mem_utf8 h), ?_⟩
    rw [Text.words_nil, List.append_nil]

theorem next_utf8 {s : ByteSource} {r : Except String (Option String)} (h : next ⟨utf8 cs⟩ = (r, s)) :
    (cs = [] ∧ r = .ok none ∧ s = ⟨utf8 []⟩) ∨ ∃ line rest,
      r = .ok (some (String.ofList line)) ∧ s = ⟨utf8 rest⟩ ∧ Text.words line ++ Text.words rest = Text.words cs := by
  by_cases hcs : cs = []
  · subst hcs
    cases h
    exact .inl ⟨rfl, rfl, rfl⟩
  · obtain ⟨line, rest, hs, hw⟩ := splitLine_utf8 cs
    obtain ⟨b, bs, hb⟩ := List.exists_cons_of_ne_nil (mt utf8_eq_nil_iff.mp hcs)
    rw [hb] at hs
    simp only [next, hb, hs, fromUTF8?_utf8] at h
    cases h
    exact .inr ⟨line, rest, rfl, rfl, hw⟩

end ByteSource

end PCode
