import PCode.ErrorType.Grammar
import PCode.Proofs.ErrorType.Output
import Mathlib.Data.List.Forall2
/-!
Which error types are accepted, and what becomes of them. The cases are gone through in order, the message of
each before its fields, and the first thing that breaks a rule decides.
-/

namespace PCode.ErrorType

variable {γ τ : Type} {lib : Library γ τ}

namespace Case

def Exposed (c : Case τ) : Prop := ∃ f ∈ c.fields.toList, f.Exposed

def Converting (c : Case τ) : Prop := ∃ f ∈ c.fields.toList, f.Converting

instance (c : Case τ) : Decidable c.Exposed := inferInstanceAs (Decidable (∃ f ∈ c.fields.toList, f.Exposed))

instance (c : Case τ) : Decidable c.Converting := inferInstanceAs (Decidable (∃ f ∈ c.fields.toList, f.Converting))

end Case

namespace Expansion

variable {c : Case τ} {cs : List (Case τ)} {p : Problem} {d e : Expansion τ}

open Case

section

variable (doc : lib.Documented)
include doc

theorem ofCase_eq_ok_iff : ofCase lib c = .ok e ↔ ∃ m s, c.Says m ∧ c.source lib = .ok s ∧ e =
    { display := [DisplayArm.ofCase c m]
      sources := (s.map (SourceArm.ofCase c)).toList
      conversions := ((s.filter Source.converts).map (Conversion.ofCase c)).toList } := by
  unfold ofCase
  simp only [bind_eq_ok, message_eq_ok_iff doc]
  constructor
  · rintro ⟨m, said, s, found, h⟩
    exact ⟨m, s, said, found, (Except.ok.inj h).symm⟩
  · rintro ⟨m, s, said, found, rfl⟩
    exact ⟨m, said, s, found, rfl⟩

theorem ofCase_eq_error_iff : ofCase lib c = .error p ↔ c.Fault lib p := by
  unfold ofCase
  simp only [bind_eq_error, message_eq_ok_iff doc, message_eq_error_iff doc, source_eq_error_iff doc]
  constructor
  · rintro (fault | ⟨m, said, fault | ⟨s, -, h⟩⟩)
    · exact .message fault
    · exact .tags said fault
    · cases h
  · intro fault
    cases fault with
    | message fault => exact .inl fault
    | tags said fault => exact .inr ⟨_, said, .inl fault⟩

theorem exists_ofCase_iff : (∃ e, ofCase lib c = .ok e) ↔ c.Accepted := by
  constructor
  · rintro ⟨e, h⟩
    obtain ⟨m, s, said, found, -⟩ := (ofCase_eq_ok_iff doc).mp h
    exact ⟨⟨m, said⟩, (source_eq_ok_iff doc).mp ⟨s, found⟩⟩
  · rintro ⟨⟨m, said⟩, tags⟩
    obtain ⟨s, found⟩ := (source_eq_ok_iff doc).mpr tags
    exact ⟨_, (ofCase_eq_ok_iff doc).mpr ⟨m, s, said, found, rfl⟩⟩

end

theorem ofCases_cons (c : Case τ) (cs : List (Case τ)) :
    ofCases lib (c :: cs) = do return (← ofCase lib c).append (← ofCases lib cs) := rfl

theorem ofCases_cons_eq_ok_iff : ofCases lib (c :: cs) = .ok e ↔
    ∃ first rest, ofCase lib c = .ok first ∧ ofCases lib cs = .ok rest ∧ e = first.append rest := by
  simp only [ofCases_cons, bind_eq_ok]
  constructor
  · rintro ⟨first, hf, rest, hr, h⟩
    exact ⟨first, rest, hf, hr, (Except.ok.inj h).symm⟩
  · rintro ⟨first, rest, hf, hr, rfl⟩
    exact ⟨first, hf, rest, hr, rfl⟩

section

variable (doc : lib.Documented)
include doc

theorem exists_ofCases_iff : (∃ e, ofCases lib cs = .ok e) ↔ ∀ c ∈ cs, c.Accepted := by
  induction cs with
  | nil => simp [ofCases]
  | cons c cs ih =>
    rw [List.forall_mem_cons, ← ih, ← exists_ofCase_iff doc]
    simp only [ofCases_cons_eq_ok_iff]
    constructor
    · rintro ⟨e, first, rest, hf, hr, -⟩
      exact ⟨⟨first, hf⟩, rest, hr⟩
    · rintro ⟨⟨first, hf⟩, rest, hr⟩
      exact ⟨_, first, rest, hf, hr, rfl⟩

theorem ofCases_eq_error_iff : ofCases lib cs = .error p ↔
    ∃ before c after, cs = before ++ c :: after ∧ (∀ b ∈ before, b.Accepted) ∧ c.Fault lib p := by
  induction cs with
  | nil => simp [ofCases]
  | cons c cs ih =>
    simp only [ofCases_cons, bind_eq_error, ih, ofCase_eq_error_iff doc]
    constructor
    · rintro (fault | ⟨first, hf, ⟨before, c', after, rfl, accepted, fault⟩ | ⟨rest, -, h⟩⟩)
      · exact ⟨[], c, cs, rfl, by simp, fault⟩
      · have head := (exists_ofCase_iff doc).mp ⟨first, hf⟩
        exact ⟨c :: before, c', after, rfl, List.forall_mem_cons.mpr ⟨head, accepted⟩, fault⟩
      · cases h
    · rintro ⟨before, c', after, split, accepted, fault⟩
      cases before with
      | nil =>
        obtain ⟨rfl, rfl⟩ := List.cons.inj split
        exact .inl fault
      | cons b before =>
        obtain ⟨rfl, rfl⟩ := List.cons.inj split
        obtain ⟨head, accepted⟩ := List.forall_mem_cons.mp accepted
        obtain ⟨first, hf⟩ := (exists_ofCase_iff doc).mpr head
        exact .inr ⟨first, hf, .inl ⟨before, c', after, rfl, accepted, fault⟩⟩

end

/-- The arms and the conversions are those of these cases. -/
structure Covers (cs : List (Case τ)) (e : Expansion τ) : Prop where
  display : List.Forall₂ (fun c arm => ∃ m, c.Says m ∧ c.Displays m arm.tokens) cs e.display
  sources : List.Forall₂ (fun c arm => c.Returns arm.tokens) (cs.filter fun c => c.Exposed) e.sources
  conversions : List.Forall₂ (fun c v => c.Builds v.type v.body) (cs.filter fun c => c.Converting) e.conversions

theorem Covers.append (h : Covers [c] d) (h' : Covers cs e) : Covers (c :: cs) (d.append e) := by
  have split (q : Case τ → Bool) : (c :: cs).filter q = [c].filter q ++ cs.filter q := by
    rw [← List.filter_append, List.singleton_append]
  constructor
  · exact List.rel_append h.display h'.display
  · rw [split]
    exact List.rel_append h.sources h'.sources
  · rw [split]
    exact List.rel_append h.conversions h'.conversions

theorem Untagged.not_converting {fields : List (Field τ)} (h : Untagged fields) : ∀ f ∈ fields, ¬f.Converting :=
  fun f hf converting => h f hf converting.exposed

theorem covers_ofCase (doc : lib.Documented) (h : ofCase lib c = .ok e) : Covers [c] e := by
  obtain ⟨m, s, said, found, rfl⟩ := (ofCase_eq_ok_iff doc).mp h
  have search := search_source doc c
  rw [found] at search
  have display : List.Forall₂ (fun c (arm : DisplayArm) => ∃ m, c.Says m ∧ c.Displays m arm.tokens) [c]
      [DisplayArm.ofCase c m] := .cons ⟨m, said, c.displays_ofCase m⟩ .nil
  cases search with
  | untagged none =>
    have hidden : ¬c.Exposed := by simpa [Case.Exposed, Untagged] using none
    have kept : ¬c.Converting := by simpa [Case.Converting] using Untagged.not_converting none
    exact ⟨display, by simp [hidden], by simp [kept]⟩
  | @tagged before after f split hb tag ha alone =>
    have exposed : c.Exposed := ⟨f, by simp [split], tag⟩
    have returned : c.Returns (SourceArm.ofCase c ⟨before.length, f.type, f.Converting⟩).tokens :=
      returns_ofCase split tag rfl
    refine ⟨display, by simp [exposed, returned], ?_⟩
    -- A field that converts is the only one, so that there is nothing before the field of the source arm.
    by_cases converting : f.Converting
    · have converted : c.Converting := ⟨f, by simp [split], converting⟩
      have size := alone converting
      rw [split] at size
      obtain rfl : before = [] := by
        apply List.eq_nil_of_length_eq_zero
        simp at size
        omega
      obtain rfl : after = [] := by
        apply List.eq_nil_of_length_eq_zero
        simpa using size
      have built : c.Builds _ (Conversion.ofCase c ⟨0, f.type, f.Converting⟩).body :=
        builds_ofCase split converting rfl rfl
      simpa [converted, converting, Option.filter] using built
    · have kept : ¬c.Converting := by
        simp only [Case.Converting, split, List.mem_append, List.mem_cons]
        rintro ⟨g, hg | rfl | hg, again⟩
        · exact Untagged.not_converting hb g hg again
        · exact converting again
        · exact Untagged.not_converting ha g hg again
      simp [kept, converting, Option.filter]

theorem covers_ofCases (doc : lib.Documented) (h : ofCases lib cs = .ok e) : Covers cs e := by
  induction cs generalizing e with
  | nil =>
    cases h
    exact ⟨.nil, .nil, .nil⟩
  | cons c cs ih =>
    obtain ⟨first, rest, hf, hr, rfl⟩ := ofCases_cons_eq_ok_iff.mp h
    exact (covers_ofCase doc hf).append (ih hr)

end Expansion

open Expansion

theorem Case.fields_ne_unit_of_source {c : Case τ} {s : Source τ} (h : c.source lib = .ok (some s)) :
    c.fields ≠ .unit := by
  intro unit
  unfold source at h
  rw [unit] at h
  cases h

namespace Description

variable {d : Description γ τ} {cs : List (Case τ)} {p : Problem} {ts : List Token}

/-- The cases of an error type: its variants, or the type itself. A union has none. -/
inductive Consists (d : Description γ τ) : List (Case τ) → Prop
  | variants {vs : List (Variant τ)} (h : d.body = .variants vs) :
    Consists d (vs.map fun v => ⟨d.name, some v.name, v.attributes, v.fields⟩)
  | whole {fields : Fields τ} (h : d.body = .fields fields) : Consists d [⟨d.name, none, d.attributes, fields⟩]

theorem consists_iff : d.Consists cs ↔ d.cases = .ok cs := by
  constructor
  · rintro (h | h)
    · rw [cases, h]
    · rw [cases, h]
  · intro h
    unfold cases at h
    split at h
    next body => exact Except.ok.inj h ▸ .variants body
    next body => exact Except.ok.inj h ▸ .whole body
    next => cases h

theorem generate_eq_of_cases (h : d.cases = .ok cs) : d.generate lib = (ofCases lib cs).map (d.tokens lib) := by
  rw [generate, ofDescription, h]
  rfl

theorem generate_eq_ok_iff :
    d.generate lib = .ok ts ↔ ∃ cs e, d.cases = .ok cs ∧ ofCases lib cs = .ok e ∧ ts = d.tokens lib e := by
  cases h : d.cases with
  | error p => simp [generate, ofDescription, h, bind, Except.bind, Except.map]
  | ok cs =>
    rw [generate_eq_of_cases h]
    cases he : ofCases lib cs <;> simp [Except.map, he, eq_comm]

theorem generate_eq_error_iff :
    d.generate lib = .error p ↔ d.cases = .error p ∨ ∃ cs, d.cases = .ok cs ∧ ofCases lib cs = .error p := by
  cases h : d.cases with
  | error p => simp [generate, ofDescription, h, bind, Except.bind, Except.map]
  | ok cs =>
    rw [generate_eq_of_cases h]
    cases he : ofCases lib cs <;> simp [Except.map, he]

/-- The parts of a generated source: the arms of both matches, the method that returns underlying errors, and the
implementations of conversions. -/
structure Parts where
  display : List (List Token)
  sources : List (List Token)
  method : List Token
  conversions : List (List Token)

/-- The generated source is made of these parts, of which each case has its own in the order of the cases: an arm
that displays it, an arm that returns its underlying error if it has one, and its conversion if it converts. -/
structure Emits (lib : Library γ τ) (d : Description γ τ) (cs : List (Case τ)) (parts : Parts) (ts : List Token) :
    Prop where
  display : List.Forall₂ (fun c arm => ∃ m, c.Says m ∧ c.Displays m arm) cs parts.display
  sources : List.Forall₂ Case.Returns (cs.filter fun c => c.Exposed) parts.sources
  method : (∃ c ∈ cs, ∃ f ∈ c.fields.toList, f.Exposed) → parts.method = sourcing parts.sources.flatten
  noMethod : (∀ c ∈ cs, ∀ f ∈ c.fields.toList, ¬f.Exposed) → parts.method = []
  conversions : List.Forall₂ (fun c conversion => ∃ type body, c.Builds type body ∧ conversion =
      d.implementing lib (rooted ["std", "convert", "From"] ++ [.mark '<'] ++ lib.typeTokens type ++ [.mark '>'])
        (converting (lib.typeTokens type) body))
    (cs.filter fun c => c.Converting) parts.conversions
  tokens : ts = d.implementing lib (rooted ["std", "fmt", "Display"]) (formatting parts.display.flatten) ++
    d.implementing lib (rooted ["std", "error", "Error"]) parts.method ++ parts.conversions.flatten

theorem emits_of_covers {e : Expansion τ} (covers : Covers cs e) : Emits lib d cs
    { display := e.display.map DisplayArm.tokens
      sources := e.sources.map SourceArm.tokens
      method := sourceFunction e.sources
      conversions := e.conversions.map (d.conversionImplementation lib) } (d.tokens lib e) where
  display := List.forall₂_map_right_iff.mpr covers.display
  sources := List.forall₂_map_right_iff.mpr covers.sources
  method := by
    rintro ⟨c, mem, f, hf, tag⟩
    have exposed : c ∈ cs.filter fun c => c.Exposed := List.mem_filter.mpr ⟨mem, decide_eq_true ⟨f, hf, tag⟩⟩
    have some : e.sources ≠ [] := by
      intro none
      have empty := covers.sources
      rw [none, List.forall₂_nil_right_iff] at empty
      rw [empty] at exposed
      cases exposed
    rw [sourceFunction_eq, if_neg some, List.flatMap_def]
  noMethod := by
    intro untagged
    have hidden : (cs.filter fun c => c.Exposed) = [] := by
      rw [List.filter_eq_nil_iff]
      intro c mem exposed
      obtain ⟨f, hf, tag⟩ := of_decide_eq_true exposed
      exact untagged c mem f hf tag
    have none := covers.sources
    rw [hidden, List.forall₂_nil_left_iff] at none
    rw [sourceFunction_eq, if_pos none]
  conversions := by
    rw [List.forall₂_map_right_iff]
    apply covers.conversions.imp
    intro c v built
    exact ⟨v.type, v.body, built, d.conversionImplementation_eq lib v⟩
  tokens := by
    rw [tokens, displayImplementation_eq, errorImplementation_eq, List.flatMap_def, List.flatMap_def]

/-- What is accepted, what is made of it, and what is reported of anything else. -/
structure Judged (lib : Library γ τ) (d : Description γ τ) : Prop where
  accepted_iff : (∃ ts, d.generate lib = .ok ts) ↔ ∃ cs, d.Consists cs ∧ ∀ c ∈ cs, c.Accepted
  emitted : ∀ cs ts, d.Consists cs → d.generate lib = .ok ts → ∃ parts, Emits lib d cs parts ts
  rejected_iff : ∀ p, d.generate lib = .error p ↔ d.body = .union ∧ p = .unionUnsupported ∨
    ∃ before c after, d.Consists (before ++ c :: after) ∧ (∀ b ∈ before, b.Accepted) ∧ c.Fault lib p
  unit : ∀ cs, d.Consists cs → ∀ c ∈ cs, ∀ s, c.source lib = .ok (some s) → c.fields ≠ .unit

theorem judged (doc : lib.Documented) (d : Description γ τ) : d.Judged lib := by
  constructor
  case accepted_iff =>
    simp only [generate_eq_ok_iff, consists_iff, ← exists_ofCases_iff doc]
    constructor
    · rintro ⟨ts, cs, e, h, he, -⟩
      exact ⟨cs, h, e, he⟩
    · rintro ⟨cs, h, e, he⟩
      exact ⟨_, cs, e, h, he, rfl⟩
  case emitted =>
    intro cs ts h hts
    obtain ⟨cs', e, h', he, rfl⟩ := generate_eq_ok_iff.mp hts
    obtain rfl := Except.ok.inj ((consists_iff.mp h).symm.trans h')
    exact ⟨_, emits_of_covers (covers_ofCases doc he)⟩
  case rejected_iff =>
    intro p
    simp only [generate_eq_error_iff, consists_iff, ofCases_eq_error_iff doc]
    apply or_congr
    · cases h : d.body <;> simp [cases, h, eq_comm]
    · constructor
      · rintro ⟨cs, h, before, c, after, rfl, rest⟩
        exact ⟨before, c, after, h, rest⟩
      · rintro ⟨before, c, after, h, rest⟩
        exact ⟨_, h, before, c, after, rfl, rest⟩
  case unit => exact fun cs _ c _ s => Case.fields_ne_unit_of_source

end Description

theorem Grammar.documented_library : library.Documented where
  isIdent_iff path name := decide_eq_true_iff
  literal_iff ts m := by
    change literal? ts = some (.text m) ↔ ts = [.text m]
    unfold literal?
    split <;> simp_all

namespace Description

def inputError : Description Grammar.Generics (List String) where
  name := "InputError"
  attributes := []
  generics := {}
  body := .variants
    [⟨"Parse", [⟨[.word "error"], .list [.text "bad input: \x7b0\x7d"]⟩],
        .tuple [⟨["ParseIntError"], [⟨[.word "from"], .path⟩]⟩]⟩,
      ⟨"Eof", [⟨[.word "error"], .list [.text "end of input"]⟩], .unit⟩]

theorem judged_inputError : (∃ ts, inputError.generate Grammar.library = .ok ts) ∧ Grammar.library.Documented ∧
    inputError.Judged Grammar.library := by
  have doc := Grammar.documented_library
  have j := judged doc inputError
  refine ⟨j.accepted_iff.mpr ⟨_, .variants rfl, ?_⟩, doc, j⟩
  have said (variant : Option String) (m : String) (fields : Fields (List String)) :
      Case.Says ⟨"InputError", variant, [⟨[.word "error"], .list [.text m]⟩], fields⟩ m :=
    ⟨⟨[.word "error"], .list [.text m]⟩, ⟨rfl, [], [], rfl, nofun⟩, rfl⟩
  rw [List.map_cons, List.map_singleton, List.forall_mem_cons, List.forall_mem_singleton]
  constructor
  · exact ⟨⟨_, said _ _ _⟩, ⟨List.pairwise_singleton _ _, fun _ _ _ => rfl⟩⟩
  · exact ⟨⟨_, said _ _ _⟩, ⟨.nil, nofun⟩⟩

end Description
end PCode.ErrorType
