import PCode.Proofs.Settings.Spelling
import PCode.Proofs.Text.Decimal
/-!
Settings out of variables. The variables are read in a fixed order, and the first that says nothing is what
is wrong with them; a stack that is too small comes last.
-/

namespace PCode.Settings

open Numeral (Counts)

section

variable {α : Type} {spells : List Char → α → Prop} {read : String → String → Except Error α} {default a : α}
  {key text : String} {v : Option String} {e : Error}

/-- What a variable says. A set one is read without its margins, one that is not set leaves the default. -/
inductive Says (spells : List Char → α → Prop) (default : α) : Option String → α → Prop
  | unset : Says spells default none default
  | set {text : String} {a : α} (h : spells (Text.trim text.toList) a) : Says spells default (some text) a

/-- The variable is set to this text, which says nothing. -/
structure Malformed (spells : List Char → α → Prop) (v : Option String) (text : String) : Prop where
  set : v = some text
  silent : ∀ a, ¬spells (Text.trim text.toList) a

theorem Malformed.not_said (h : Malformed spells v text) : ¬Says spells default v a := by
  obtain ⟨rfl, silent⟩ := h
  intro hs
  cases hs with
  | set hs => exact silent a hs

structure Reads (read : String → String → Except Error α) (spells : List Char → α → Prop) : Prop where
  ok_iff : ∀ {key text a}, read key text = .ok a ↔ spells (Text.trim text.toList) a
  error : ∀ {key text e}, read key text = .error e → e = .invalidConfig key text

theorem Reads.error_iff (h : Reads read spells) :
    read key text = .error e ↔ (∀ a, ¬spells (Text.trim text.toList) a) ∧ e = .invalidConfig key text := by
  constructor
  · intro he
    refine ⟨?_, h.error he⟩
    intro a ha
    rw [h.ok_iff.mpr ha] at he
    cases he
  · rintro ⟨silent, rfl⟩
    cases hr : read key text with
    | ok a => exact absurd (h.ok_iff.mp hr) (silent a)
    | error e => rw [h.error hr]

theorem readOr_eq_ok_iff (h : Reads read spells) : readOr default read key v = .ok a ↔ Says spells default v a := by
  constructor
  · intro hr
    cases v with
    | none =>
      cases hr
      exact .unset
    | some text => exact .set (h.ok_iff.mp hr)
  · intro hs
    cases hs with
    | unset => rfl
    | set hs => exact h.ok_iff.mpr hs

theorem readOr_eq_error_iff (h : Reads read spells) :
    readOr default read key v = .error e ↔ ∃ text, Malformed spells v text ∧ e = .invalidConfig key text := by
  constructor
  · intro hr
    cases v with
    | none => cases hr
    | some text =>
      obtain ⟨silent, he⟩ := h.error_iff.mp hr
      exact ⟨text, ⟨rfl, silent⟩, he⟩
  · rintro ⟨text, ⟨rfl, silent⟩, he⟩
    exact h.error_iff.mpr ⟨silent, he⟩

end

/-- A step limit is a count if there is one. -/
def Limits (cs : List Char) (limit : Option Nat) : Prop := ∃ n, limit = some n ∧ Counts cs n

theorem reads_count : Reads readCount Counts := by
  constructor
  · intro key text n
    rw [← Numeral.readCount_eq_ok_iff, readCount]
    cases Numeral.readCount (Text.trim text.toList) <;> simp
  · intro key text e h
    unfold readCount at h
    split at h
    · cases h
    · exact (Except.error.inj h).symm

theorem reads_flag : Reads readFlag Flags := by
  have apart : ∀ s ∈ onSpellings, s ∉ offSpellings := by decide
  constructor
  · intro key text on
    simp only [readFlag, Flags]
    generalize String.ofList _ = s
    by_cases hon : s ∈ onSpellings
    · have hoff := apart s hon
      cases on <;> simp [spellings, hon, hoff]
    · by_cases hoff : s ∈ offSpellings
      · cases on <;> simp [spellings, hon, hoff]
      · cases on <;> simp [spellings, hon, hoff]
  · intro key text e h
    unfold readFlag at h
    simp only at h
    split_ifs at h
    exact (Except.error.inj h).symm

theorem reads_limit : Reads (fun key value => some <$> readCount key value) Limits := by
  constructor
  · intro key text limit
    have count (n : Nat) : readCount key text = .ok n ↔ _ := reads_count.ok_iff
    simp only [Limits, ← count]
    cases readCount key text <;> simp [eq_comm]
  · intro key text e h
    apply reads_count.error
    cases hr : readCount key text with
    | ok n =>
      rw [hr] at h
      cases h
    | error e' =>
      rw [hr] at h
      cases h
      rfl

variable {lookup : String → Option String} {s : Settings} {e : Error}

/-- What the variables say, whether or not the stack is large enough. -/
structure Told (lookup : String → Option String) (s : Settings) : Prop where
  stackSize : Says Counts ({} : Settings).stackSize (lookup stackSizeKey) s.stackSize
  trace : Says Flags ({} : Settings).trace (lookup traceKey) s.trace
  stepLimit : Says Limits ({} : Settings).stepLimit (lookup stepLimitKey) s.stepLimit

theorem validate_eq_error_iff :
    s.validate = .error e ↔ s.stackSize < Frame.headerSize ∧ e = .invalidConfig stackSizeKey (toString s.stackSize) := by
  unfold validate
  split_ifs <;> simp_all [eq_comm]

theorem ofLookup_eq_ok_iff : ofLookup lookup = .ok s ↔ Told lookup s ∧ s.validate = .ok () := by
  unfold ofLookup
  simp only [bind_eq_ok, readOr_eq_ok_iff reads_count, readOr_eq_ok_iff reads_flag, readOr_eq_ok_iff reads_limit]
  constructor
  · rintro ⟨size, hsize, on, hon, limit, hlimit, _, hv, hs⟩
    obtain rfl := Except.ok.inj hs
    exact ⟨⟨hsize, hon, hlimit⟩, hv⟩
  · rintro ⟨⟨hsize, hon, hlimit⟩, hv⟩
    exact ⟨_, hsize, _, hon, _, hlimit, _, hv, rfl⟩

/-- The first thing that is wrong. -/
inductive Rejected (lookup : String → Option String) : Error → Prop
  | stackSize {text} (malformed : Malformed Counts (lookup stackSizeKey) text) :
    Rejected lookup (.invalidConfig stackSizeKey text)
  | trace {size text} (stackSize : Says Counts ({} : Settings).stackSize (lookup stackSizeKey) size)
      (malformed : Malformed Flags (lookup traceKey) text) : Rejected lookup (.invalidConfig traceKey text)
  | stepLimit {size on text} (stackSize : Says Counts ({} : Settings).stackSize (lookup stackSizeKey) size)
      (trace : Says Flags ({} : Settings).trace (lookup traceKey) on)
      (malformed : Malformed Counts (lookup stepLimitKey) text) : Rejected lookup (.invalidConfig stepLimitKey text)
  | small {s : Settings} (told : Told lookup s) (small : s.stackSize < Frame.headerSize) :
    Rejected lookup (.invalidConfig stackSizeKey (toString s.stackSize))

theorem malformed_limits_iff {v : Option String} {text : String} : Malformed Limits v text ↔ Malformed Counts v text := by
  constructor
  · rintro ⟨set, silent⟩
    exact ⟨set, fun n hn => silent (some n) ⟨n, rfl, hn⟩⟩
  · rintro ⟨set, silent⟩
    exact ⟨set, fun limit ⟨n, _, hn⟩ => silent n hn⟩

theorem ofLookup_eq_error_iff : ofLookup lookup = .error e ↔ Rejected lookup e := by
  unfold ofLookup
  simp only [bind_eq_error, readOr_eq_error_iff reads_count, readOr_eq_error_iff reads_flag,
    readOr_eq_error_iff reads_limit, readOr_eq_ok_iff reads_count, readOr_eq_ok_iff reads_flag,
    readOr_eq_ok_iff reads_limit, malformed_limits_iff]
  constructor
  · rintro (⟨text, bad, rfl⟩ | ⟨size, hsize, ⟨text, bad, rfl⟩ | ⟨on, hon, ⟨text, bad, rfl⟩ | ⟨limit, hlimit, hv | ⟨-, -, h⟩⟩⟩⟩)
    · exact .stackSize bad
    · exact .trace hsize bad
    · exact .stepLimit hsize hon bad
    · obtain ⟨small, rfl⟩ := validate_eq_error_iff.mp hv
      exact .small (s := ⟨size, on, limit⟩) ⟨hsize, hon, hlimit⟩ small
    · cases h
  · intro h
    cases h with
    | stackSize bad => exact .inl ⟨_, bad, rfl⟩
    | trace hsize bad => exact .inr ⟨_, hsize, .inl ⟨_, bad, rfl⟩⟩
    | stepLimit hsize hon bad => exact .inr ⟨_, hsize, .inr ⟨_, hon, .inl ⟨_, bad, rfl⟩⟩⟩
    | small told small =>
      have hv := validate_eq_error_iff.mpr ⟨small, rfl⟩
      exact .inr ⟨_, told.stackSize, .inr ⟨_, told.trace, .inr ⟨_, told.stepLimit, .inl hv⟩⟩⟩

structure Diagnosed (lookup : String → Option String) : Prop where
  fails_iff : (∃ e, ofLookup lookup = .error e) ↔
    (∃ text, Malformed Counts (lookup stackSizeKey) text) ∨ (∃ text, Malformed Flags (lookup traceKey) text) ∨
      (∃ text, Malformed Counts (lookup stepLimitKey) text) ∨ ∃ s, Told lookup s ∧ s.stackSize < Frame.headerSize
  error_iff : ∀ e, ofLookup lookup = .error e ↔ Rejected lookup e

theorem Told.not_malformed (told : Told lookup s) :
    (∀ text, ¬Malformed Counts (lookup stackSizeKey) text) ∧ (∀ text, ¬Malformed Flags (lookup traceKey) text) ∧
      ∀ text, ¬Malformed Counts (lookup stepLimitKey) text := by
  refine ⟨?_, ?_, ?_⟩
  · exact fun text bad => bad.not_said told.stackSize
  · exact fun text bad => bad.not_said told.trace
  · exact fun text bad => (malformed_limits_iff.mpr bad).not_said told.stepLimit

theorem diagnosed_ofLookup (lookup : String → Option String) : Diagnosed lookup := by
  constructor
  case error_iff => exact fun e => ofLookup_eq_error_iff
  case fails_iff =>
    constructor
    · rintro ⟨e, h⟩
      cases ofLookup_eq_error_iff.mp h with
      | stackSize bad => exact .inl ⟨_, bad⟩
      | trace _ bad => exact .inr (.inl ⟨_, bad⟩)
      | stepLimit _ _ bad => exact .inr (.inr (.inl ⟨_, bad⟩))
      | small told small => exact .inr (.inr (.inr ⟨_, told, small⟩))
    · intro bad
      cases h : ofLookup lookup with
      | error e => exact ⟨e, rfl⟩
      | ok s =>
        obtain ⟨size, trace, limit⟩ := (ofLookup_eq_ok_iff.mp h).1.not_malformed
        rcases bad with ⟨text, bad⟩ | ⟨text, bad⟩ | ⟨text, bad⟩ | ⟨s', told, small⟩
        · exact absurd bad (size text)
        · exact absurd bad (trace text)
        · exact absurd bad (limit text)
        · rw [ofLookup_eq_error_iff.mpr (.small told small)] at h
          cases h

/-- A flag that says nothing comes before a stack that is too small. -/
example :
    ofLookup (fun key => if key = stackSizeKey then some "2" else if key = traceKey then some " maybe" else none) =
      .error (.invalidConfig traceKey " maybe") := rfl

end PCode.Settings
