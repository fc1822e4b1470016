import PCode.Machine.Basic
import PCode.Proofs.Settings.Lookup
/-!
Settings as variables. Sound settings are read again from variables that show them, however these are spelled,
and nothing else is read from any variables.
-/

namespace PCode.Settings

open Numeral (Counts Written greatestCount)

section

variable {α : Type} {spells : List Char → α → Prop} {texts : α → List Char → Prop} {holds : α → Prop} {default a : α}
  {v : Option String}

/-- One of the texts for `a` stands inside margins. A variable that shows the default need not be set. -/
inductive Shows (texts : α → List Char → Prop) (default : α) : Option String → α → Prop
  | unset : Shows texts default none default
  | set {inner : List Char} {text : String} {a : α} (h : texts a inner) (margins : Text.Enclosed inner text.toList) :
    Shows texts default (some text) a

theorem says_iff (iff : ∀ cs a, spells cs a ↔ texts a cs ∧ holds a) (unbroken : ∀ cs a, spells cs a → Text.Unbroken cs)
    (hd : holds default) : Says spells default v a ↔ Shows texts default v a ∧ holds a := by
  constructor
  · intro h
    cases h with
    | unset => exact ⟨.unset, hd⟩
    | @set text a h =>
      obtain ⟨ht, ha⟩ := (iff _ _).mp h
      exact ⟨.set ht (Text.enclosed_trim text.toList), ha⟩
  · rintro ⟨h, ha⟩
    cases h with
    | unset => exact .unset
    | set ht margins =>
      have hs := (iff _ _).mpr ⟨ht, ha⟩
      apply Says.set
      rwa [Text.trim_of_enclosed (unbroken _ _ hs) margins]

end

def FlagTexts (on : Bool) (cs : List Char) : Prop := ∃ spelling ∈ spellings on, Cased spelling.toList cs

def LimitTexts (limit : Option Nat) (cs : List Char) : Prop := ∃ n, limit = some n ∧ Written n cs

variable {s : Settings} {lookup : String → Option String}

structure Rendered (s : Settings) (lookup : String → Option String) : Prop where
  stackSize : Shows Written ({} : Settings).stackSize (lookup stackSizeKey) s.stackSize
  trace : Shows FlagTexts ({} : Settings).trace (lookup traceKey) s.trace
  stepLimit : Shows LimitTexts ({} : Settings).stepLimit (lookup stepLimitKey) s.stepLimit

/-- The numbers fit 64 bits. -/
structure Storable (s : Settings) : Prop where
  stackSize : s.stackSize ≤ greatestCount
  stepLimit : ∀ limit, s.stepLimit = some limit → limit ≤ greatestCount

theorem limits_iff (cs : List Char) (limit : Option Nat) :
    Limits cs limit ↔ LimitTexts limit cs ∧ ∀ n, limit = some n → n ≤ greatestCount := by
  constructor
  · rintro ⟨n, rfl, h⟩
    obtain ⟨written, bound⟩ := Numeral.counts_iff.mp h
    refine ⟨⟨n, rfl, written⟩, ?_⟩
    rintro _ ⟨⟩
    exact bound
  · rintro ⟨⟨n, rfl, written⟩, bound⟩
    exact ⟨n, rfl, Numeral.counts_iff.mpr ⟨written, bound n rfl⟩⟩

theorem told_iff : Told lookup s ↔ s.Rendered lookup ∧ s.Storable := by
  have size {v : Option String} {n : Nat} : Says Counts ({} : Settings).stackSize v n ↔ _ :=
    says_iff (fun _ _ => Numeral.counts_iff) (fun _ _ => Numeral.Counts.unbroken) (by decide)
  have flag {v : Option String} {on : Bool} :
      Says Flags ({} : Settings).trace v on ↔ Shows FlagTexts ({} : Settings).trace v on ∧ True :=
    says_iff (fun _ _ => flags_iff.trans (iff_of_eq (and_true _).symm)) (fun _ _ => Flags.unbroken) trivial
  have limit {v : Option String} {limit : Option Nat} : Says Limits ({} : Settings).stepLimit v limit ↔ _ :=
    says_iff limits_iff (fun _ _ ⟨_, _, h⟩ => h.unbroken) nofun
  constructor
  · rintro ⟨hs, ht, hl⟩
    obtain ⟨hs, bs⟩ := size.mp hs
    obtain ⟨hl, bl⟩ := limit.mp hl
    exact ⟨⟨hs, (flag.mp ht).1, hl⟩, ⟨bs, bl⟩⟩
  · rintro ⟨⟨hs, ht, hl⟩, ⟨bs, bl⟩⟩
    exact ⟨size.mpr ⟨hs, bs⟩, flag.mpr ⟨ht, trivial⟩, limit.mpr ⟨hl, bl⟩⟩

structure RoundTrip (s : Settings) (lookup : String → Option String) : Prop where
  read : s.validate = .ok () → s.Storable → s.Rendered lookup → ofLookup lookup = .ok s
  accepted : s.validate = .ok () → ∀ program, Machine.ofSettings program s = .ok (.fresh program s)
  valid : ofLookup lookup = .ok s → s.validate = .ok () ∧ s.Storable ∧ s.Rendered lookup

theorem round_trip (s : Settings) (lookup : String → Option String) : RoundTrip s lookup := by
  constructor
  case read =>
    intro valid storable rendered
    exact ofLookup_eq_ok_iff.mpr ⟨told_iff.mpr ⟨rendered, storable⟩, valid⟩
  case accepted =>
    intro valid program
    rw [Machine.ofSettings, valid]
    rfl
  case valid =>
    intro h
    obtain ⟨told, valid⟩ := ofLookup_eq_ok_iff.mp h
    obtain ⟨rendered, storable⟩ := told_iff.mp told
    exact ⟨valid, storable, rendered⟩

theorem round_trip_padded :
    let s : Settings := { stackSize := 64, trace := true, stepLimit := some 0xffffffffffffffff }
    let lookup (key : String) : Option String :=
      if key = stackSizeKey then some "\t+0064 "
      else if key = traceKey then some "\u2003yEs\n"
      else if key = stepLimitKey then some "018446744073709551615"
      else some key
    s.validate = .ok () ∧ s.Storable ∧ s.Rendered lookup ∧ ofLookup lookup = .ok s := by
  intro s lookup
  have storable : s.Storable := ⟨by decide, by rintro _ ⟨⟩; decide⟩
  have rendered : s.Rendered lookup := by
    constructor
    · have size : Written 64 (Text.trim "\t+0064 ".toList) := .plus 2
      exact .set size (Text.enclosed_trim _)
    · refine .set ⟨"yes", by decide, ?_⟩ (Text.enclosed_trim "\u2003yEs\n".toList)
      exact .cons (.inl rfl) (.cons (.inr rfl) (.cons (.inl rfl) .nil))
    · exact .set ⟨_, rfl, .plain 1⟩ (Text.enclosed_trim "018446744073709551615".toList)
  exact ⟨rfl, storable, rendered, (round_trip s lookup).read rfl storable rendered⟩

end PCode.Settings
