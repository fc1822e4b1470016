import PCode.Proofs.Program.Listing
import PCode.Trace
/-!
What the stack column of a trace tells. Between its bars are the cells in order, and the bars are before the first
cells of the frames above the bottom of the stack, so that a column tells the cells and these frames.
-/

namespace PCode

namespace Text

variable {tokens tokens' : List String}

theorem words_intercalate (solid : ∀ token ∈ tokens, Solid token.toList) :
    words (" ".intercalate tokens).toList = tokens.map String.toList := by
  induction tokens with
  | nil => exact words_nil
  | cons token tokens ih =>
    obtain ⟨first, rest⟩ := List.forall_mem_cons.mp solid
    cases tokens with
    | nil => simp [words_of_solid first]
    | cons next tokens =>
      have blank : isBlank ' ' := by decide
      have text : (" ".intercalate (token :: next :: tokens)).toList =
          token.toList ++ ' ' :: (" ".intercalate (next :: tokens)).toList := by
        simp [String.toList_append]
      rw [text, words_append_cons blank, words_of_solid first, ih rest]
      rfl

theorem intercalate_inj (solid : ∀ token ∈ tokens, Solid token.toList)
    (solid' : ∀ token ∈ tokens', Solid token.toList) :
    " ".intercalate tokens = " ".intercalate tokens' ↔ tokens = tokens' := by
  constructor
  · intro h
    have hw := words_intercalate solid
    rw [h, words_intercalate solid'] at hw
    exact (List.map_inj_right fun _ _ => String.toList_injective).mp hw.symm
  · rintro rfl
    rfl

end Text

namespace Trace

/-- A frame other than the one at the bottom of the stack starts at the address. -/
def Marked (frames : List Nat) (stack : Array Word) (address : Nat) : Prop :=
  0 < address ∧ address < stack.size ∧ address ∈ frames

def values (tokens : List String) : List String := tokens.filter (· ≠ "|")

/-- A bar comes after the values of the cells below the address. -/
def Barred (tokens : List String) (address : Nat) : Prop :=
  ∃ before after, tokens = before ++ "|" :: after ∧ (values before).length = address

/-- Every bar has a value right after it. -/
def Followed (tokens : List String) : Prop :=
  ∀ before after, tokens = before ++ "|" :: after → ∃ w : Word, after.head? = some (toString w)

/-- The values of the cells in order, with a bar right before each marked one and nowhere else. -/
structure Laid (marked : Nat → Prop) (cells : List Word) (tokens : List String) : Prop where
  values : values tokens = cells.map toString
  barred : ∀ address, Barred tokens address ↔ marked address
  followed : Followed tokens

variable {marked marked' : Nat → Prop} {cells cells' ws : List Word} {tokens rest : List String} {w : Word}
  {frames : List Nat} {stack : Array Word} {address : Nat}

theorem isName_bar : IsName "|" := isName_of_any (solid_of_all (by decide) (by decide)) (by decide)

theorem toString_ne_bar (w : Word) : toString w ≠ "|" := (isName_bar.ne_toString w).symm

theorem values_bar_cons (rest : List String) : values ("|" :: rest) = values rest := rfl

theorem values_toString_cons (w : Word) (rest : List String) :
    values (toString w :: rest) = toString w :: values rest := by
  simp [values, toString_ne_bar w]

theorem not_barred_nil : ¬Barred [] address := by
  simp [Barred]

theorem barred_bar_cons_iff : Barred ("|" :: rest) address ↔ address = 0 ∨ Barred rest address := by
  constructor
  · rintro ⟨before, after, h, rfl⟩
    rcases List.cons_eq_append_iff.mp h with ⟨rfl, -⟩ | ⟨before, rfl, rfl⟩
    · exact .inl rfl
    · exact .inr ⟨before, after, rfl, rfl⟩
  · rintro (rfl | ⟨before, after, rfl, rfl⟩)
    · exact ⟨[], rest, rfl, rfl⟩
    · exact ⟨"|" :: before, after, rfl, rfl⟩

theorem barred_toString_cons_iff (w : Word) :
    Barred (toString w :: rest) address ↔ ∃ a, address = a + 1 ∧ Barred rest a := by
  have count (before : List String) : (values (toString w :: before)).length = (values before).length + 1 := by
    rw [values_toString_cons, List.length_cons]
  constructor
  · rintro ⟨before, after, h, rfl⟩
    rcases List.cons_eq_append_iff.mp h with ⟨-, first⟩ | ⟨before, rfl, rfl⟩
    · exact absurd (List.cons_eq_cons.mp first).1.symm (toString_ne_bar w)
    · exact ⟨_, count before, before, after, rfl, rfl⟩
  · rintro ⟨_, rfl, before, after, rfl, rfl⟩
    exact ⟨toString w :: before, after, rfl, count before⟩

theorem followed_nil : Followed [] := by
  simp [Followed]

theorem followed_bar_cons_iff :
    Followed ("|" :: rest) ↔ (∃ w : Word, rest.head? = some (toString w)) ∧ Followed rest := by
  constructor
  · intro h
    refine ⟨h [] rest rfl, ?_⟩
    rintro before after rfl
    exact h ("|" :: before) after rfl
  · rintro ⟨next, h⟩ before after same
    rcases List.cons_eq_append_iff.mp same with ⟨-, first⟩ | ⟨before, -, later⟩
    · rwa [(List.cons_eq_cons.mp first).2]
    · exact h before after later

theorem followed_toString_cons_iff (w : Word) : Followed (toString w :: rest) ↔ Followed rest := by
  constructor
  · rintro h before after rfl
    exact h (toString w :: before) after rfl
  · intro h before after same
    rcases List.cons_eq_append_iff.mp same with ⟨-, first⟩ | ⟨before, -, later⟩
    · exact absurd (List.cons_eq_cons.mp first).1.symm (toString_ne_bar w)
    · exact h before after later

theorem laid_nil_iff : Laid marked [] tokens ↔ tokens = [] ∧ ∀ a, ¬marked a := by
  constructor
  · intro h
    cases tokens with
    | nil => exact ⟨rfl, fun a ha => not_barred_nil ((h.barred a).mpr ha)⟩
    | cons token rest =>
      -- A bar is not the last token, so that some token is a value.
      exfalso
      have none := h.values
      by_cases hb : token = "|"
      · subst hb
        obtain ⟨⟨w, hw⟩, -⟩ := followed_bar_cons_iff.mp h.followed
        obtain ⟨rest, rfl⟩ := List.head?_eq_some_iff.mp hw
        rw [values_bar_cons, values_toString_cons] at none
        cases none
      · simp [Trace.values, hb] at none
  · rintro ⟨rfl, unmarked⟩
    refine ⟨rfl, ?_, followed_nil⟩
    intro a
    exact iff_of_false not_barred_nil (unmarked a)

theorem laid_toString_cons_iff :
    Laid marked (w :: ws) (toString w :: rest) ↔ ¬marked 0 ∧ Laid (fun a => marked (a + 1)) ws rest := by
  constructor
  · intro h
    have bars := h.barred
    simp only [barred_toString_cons_iff] at bars
    refine ⟨?_, ?_, ?_, (followed_toString_cons_iff w).mp h.followed⟩
    · simpa using bars 0
    · simpa [values_toString_cons] using h.values
    · intro a
      simpa using bars (a + 1)
  · rintro ⟨unmarked, h⟩
    refine ⟨?_, ?_, (followed_toString_cons_iff w).mpr h.followed⟩
    · rw [values_toString_cons, h.values, List.map_cons]
    · intro a
      rw [barred_toString_cons_iff]
      cases a with
      | zero => simpa using unmarked
      | succ a => simpa using h.barred a

theorem laid_bar_cons_iff :
    Laid marked (w :: ws) ("|" :: toString w :: rest) ↔ marked 0 ∧ Laid (fun a => marked (a + 1)) ws rest := by
  constructor
  · intro h
    have bars := h.barred
    simp only [barred_bar_cons_iff, barred_toString_cons_iff] at bars
    refine ⟨?_, ?_, ?_, ?_⟩
    · simpa using bars 0
    · simpa [values_bar_cons, values_toString_cons] using h.values
    · intro a
      simpa using bars (a + 1)
    · exact (followed_toString_cons_iff w).mp (followed_bar_cons_iff.mp h.followed).2
  · rintro ⟨here, h⟩
    refine ⟨?_, ?_, ?_⟩
    · rw [values_bar_cons, values_toString_cons, h.values, List.map_cons]
    · intro a
      rw [barred_bar_cons_iff, barred_toString_cons_iff]
      cases a with
      | zero => simpa using here
      | succ a => simpa using h.barred a
    · exact followed_bar_cons_iff.mpr ⟨⟨w, rfl⟩, (followed_toString_cons_iff w).mpr h.followed⟩

theorem laid_cons_iff :
    Laid marked (w :: ws) tokens ↔ ∃ rest, Laid (fun a => marked (a + 1)) ws rest ∧
      (marked 0 ∧ tokens = "|" :: toString w :: rest ∨ ¬marked 0 ∧ tokens = toString w :: rest) := by
  constructor
  · intro h
    cases tokens with
    | nil => cases h.values
    | cons token rest =>
      have first := h.values
      by_cases hb : token = "|"
      · subst hb
        obtain ⟨⟨v, hv⟩, -⟩ := followed_bar_cons_iff.mp h.followed
        obtain ⟨rest, rfl⟩ := List.head?_eq_some_iff.mp hv
        rw [values_bar_cons, values_toString_cons, List.map_cons] at first
        rw [(List.cons_eq_cons.mp first).1] at h ⊢
        obtain ⟨here, hr⟩ := laid_bar_cons_iff.mp h
        exact ⟨rest, hr, .inl ⟨here, rfl⟩⟩
      · rw [Trace.values, List.filter_cons_of_pos (by simpa using hb), List.map_cons] at first
        obtain rfl := (List.cons_eq_cons.mp first).1
        obtain ⟨here, hr⟩ := laid_toString_cons_iff.mp h
        exact ⟨rest, hr, .inr ⟨here, rfl⟩⟩
  · rintro ⟨rest, hr, ⟨here, rfl⟩ | ⟨here, rfl⟩⟩
    · exact laid_bar_cons_iff.mpr ⟨here, hr⟩
    · exact laid_toString_cons_iff.mpr ⟨here, hr⟩

theorem laid_congr (same : ∀ a, marked a ↔ marked' a) : Laid marked cells tokens ↔ Laid marked' cells tokens := by
  obtain rfl : marked = marked' := funext fun a => propext (same a)
  rfl

theorem laid_iff_eq_stackTokens :
    Laid (fun k => 0 < address + k ∧ k < ws.length ∧ address + k ∈ frames) ws tokens ↔
      tokens = stackTokens frames address ws := by
  induction ws generalizing address tokens with
  | nil => simp [laid_nil_iff, stackTokens]
  | cons w ws ih =>
    have later (rest : List String) : Laid (fun k => 0 < address + (k + 1) ∧ k + 1 < (w :: ws).length ∧
        address + (k + 1) ∈ frames) ws rest ↔ rest = stackTokens frames (address + 1) ws := by
      rw [← ih]
      apply laid_congr
      intro k
      have shift : address + (k + 1) = address + 1 + k := by omega
      rw [shift, List.length_cons, Nat.add_lt_add_iff_right]
    simp only [laid_cons_iff, later, exists_eq_left, stackTokens]
    split
    next here => simp [here]
    next here => simp [here]

theorem laid_iff : Laid (Marked frames stack) stack.toList tokens ↔ tokens = stackTokens frames 0 stack.toList := by
  rw [← laid_iff_eq_stackTokens]
  apply laid_congr
  intro a
  simp [Marked]

theorem Laid.solid (h : Laid marked cells tokens) : ∀ token ∈ tokens, Text.Solid token.toList := by
  intro token hm
  by_cases hb : token = "|"
  · exact hb ▸ isName_bar.1
  · have shown : token ∈ Trace.values tokens := List.mem_filter.mpr ⟨hm, by simpa using hb⟩
    rw [h.values] at shown
    obtain ⟨w, -, rfl⟩ := List.mem_map.mp shown
    exact solid_toString w

theorem Laid.unique (h : Laid marked cells tokens) (h' : Laid marked' cells' tokens) :
    cells = cells' ∧ ∀ a, marked a ↔ marked' a := by
  have values := h.values.symm.trans h'.values
  refine ⟨(List.map_inj_right fun _ _ => toString_inj.mp).mp values, ?_⟩
  intro a
  exact (h.barred a).symm.trans (h'.barred a)

/-- There is one column for the cells of a stack and its marks, and it tells both. -/
structure Readable (column : List Nat → Array Word → String) : Prop where
  laid : ∀ frames stack text, text = column frames stack ↔
    ∃ tokens, Laid (Marked frames stack) stack.toList tokens ∧ text = " ".intercalate tokens
  eq_iff : ∀ frames stack frames' stack', column frames stack = column frames' stack' ↔
    stack = stack' ∧ ∀ address, Marked frames stack address ↔ Marked frames' stack' address

theorem readable_stackText : Readable stackText := by
  constructor
  case laid =>
    intro frames stack text
    simp only [laid_iff, exists_eq_left, stackText]
  case eq_iff =>
    intro frames stack frames' stack'
    have h : Laid (Marked frames stack) stack.toList _ := laid_iff.mpr rfl
    have h' : Laid (Marked frames' stack') stack'.toList _ := laid_iff.mpr rfl
    rw [stackText, stackText, Text.intercalate_inj h.solid h'.solid]
    constructor
    · intro same
      rw [← same] at h'
      obtain ⟨cells, marks⟩ := h.unique h'
      exact ⟨Array.toList_inj.mp cells, marks⟩
    · rintro ⟨rfl, marks⟩
      exact laid_iff.mp ((laid_congr marks).mp h)

/-- A frame that is named twice, starts at the bottom or lies above the stack adds nothing. -/
example : stackText [9, 3, 3, 0] #[0, 0, 0, 0, 0, 5] = "0 0 0 | 0 0 5" := rfl

end Trace
end PCode
