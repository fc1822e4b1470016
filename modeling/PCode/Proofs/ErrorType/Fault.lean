import PCode.Error
import PCode.ErrorType.Case
import Mathlib.Data.List.Basic
/-!
What the attributes of a case declare, a message and perhaps an underlying error, and what can be wrong with
them. The message comes from the first attribute of its name. The search for the underlying error is described
by the fields before, between and after the tagged ones.
-/

namespace PCode.ErrorType

variable {γ τ : Type}

/-- The library answers as it is documented: the path of a name is that one word, and a text is one token. -/
structure Library.Documented (lib : Library γ τ) : Prop where
  isIdent_iff : ∀ path name, lib.isIdent path name ↔ path = [.word name]
  literal_iff : ∀ ts m, lib.literal? ts = some (.text m) ↔ ts = [.text m]

namespace Attribute

def Is (a : Attribute) (name : String) : Prop := a.path = [.word name]

instance (a : Attribute) (name : String) : Decidable (a.Is name) := inferInstanceAs (Decidable (a.path = [.word name]))

/-- The first attribute of that name. -/
def Leads (a : Attribute) (name : String) (attributes : List Attribute) : Prop :=
  a.Is name ∧ ∃ before after, attributes = before ++ a :: after ∧ ∀ b ∈ before, ¬b.Is name

end Attribute

namespace Field

def Tagged (f : Field τ) (name : String) : Prop := ∃ a ∈ f.attributes, a.Is name

instance (f : Field τ) (name : String) : Decidable (f.Tagged name) :=
  inferInstanceAs (Decidable (∃ a ∈ f.attributes, a.Is name))

def Converting (f : Field τ) : Prop := f.Tagged "from"

instance (f : Field τ) : Decidable f.Converting := inferInstanceAs (Decidable (f.Tagged "from"))

/-- The field is an underlying error. -/
def Exposed (f : Field τ) : Prop := f.Converting ∨ f.Tagged "source"

instance (f : Field τ) : Decidable f.Exposed := inferInstanceAs (Decidable (f.Converting ∨ f.Tagged "source"))

end Field

theorem Field.Converting.exposed {f : Field τ} (h : f.Converting) : f.Exposed := .inl h

namespace Case

variable {lib : Library γ τ} {c : Case τ} {p q : Problem} {m : String} {ts : List Token}

def Says (c : Case τ) (m : String) : Prop := ∃ a : Attribute, a.Leads "error" c.attributes ∧ a.form = .list [.text m]

/-- What a problem calls a case. -/
inductive Called (c : Case τ) : String → Prop
  | variant {name : String} (h : c.variant = some name) : Called c ("variant \x60" ++ name ++ "\x60")
  | whole (h : c.variant = none) : Called c ("type \x60" ++ c.typeName ++ "\x60")

inductive MessageFault (lib : Library γ τ) (c : Case τ) : Problem → Prop
  | missing {owner : String} (absent : ∀ a ∈ c.attributes, ¬a.Is "error") (called : c.Called owner) :
    MessageFault lib c (.messageMissing owner)
  | form {a : Attribute} (leads : a.Leads "error" c.attributes) (unlisted : ∀ ts, a.form ≠ .list ts) :
    MessageFault lib c .messageForm
  | notText {a : Attribute} {ts : List Token} (leads : a.Leads "error" c.attributes) (list : a.form = .list ts)
      (other : lib.literal? ts = some .other) : MessageFault lib c .messageNotText
  | unreadable {a : Attribute} {ts : List Token} (leads : a.Leads "error" c.attributes) (list : a.form = .list ts)
    (illegible : lib.literal? ts = none) : MessageFault lib c .messageUnreadable

theorem called_iff {owner : String} : c.Called owner ↔ owner = c.owner := by
  constructor
  · rintro (⟨h⟩ | ⟨h⟩)
    · rw [Case.owner, h]
      rfl
    · rw [Case.owner, h]
      rfl
  · rintro rfl
    cases h : c.variant with
    | none =>
      rw [Case.owner, h]
      exact .whole h
    | some name =>
      rw [Case.owner, h]
      exact .variant h

section

variable (doc : lib.Documented)
include doc

theorem isIdent_eq (a : Attribute) (name : String) : lib.isIdent a.path name = decide (a.Is name) := by
  rw [Bool.eq_iff_iff, decide_eq_true_iff]
  exact doc.isIdent_iff a.path name

theorem converts_eq (f : Field τ) : converts lib f = decide f.Converting := by
  rw [Bool.eq_iff_iff, decide_eq_true_iff]
  simp [converts, isIdent_eq doc, Field.Converting, Field.Tagged]

theorem isSource_eq (f : Field τ) : isSource lib f = decide f.Exposed := by
  rw [Bool.eq_iff_iff, decide_eq_true_iff]
  simp [isSource, converts_eq doc, isIdent_eq doc, Field.Exposed, Field.Tagged]

theorem find?_eq_some_iff {a : Attribute} :
    (c.attributes.find? fun a => lib.isIdent a.path "error") = some a ↔ a.Leads "error" c.attributes := by
  simp [isIdent_eq doc, List.find?_eq_some_iff_append, Attribute.Leads]

theorem messageOfForm_list_eq_ok_iff : messageOfForm lib (.list ts) = .ok m ↔ ts = [.text m] := by
  rw [← doc.literal_iff, messageOfForm]
  cases lib.literal? ts with
  | none => simp
  | some l => cases l <;> simp

theorem message_eq_ok_iff : c.message lib = .ok m ↔ c.Says m := by
  unfold message Says
  simp only [← find?_eq_some_iff doc]
  cases c.attributes.find? fun a => lib.isIdent a.path "error" with
  | none => simp
  | some a =>
    cases h : a.form with
    | list ts => simp [messageOfForm_list_eq_ok_iff doc, h]
    | path | value => simp [messageOfForm, h]

theorem message_eq_error_iff : c.message lib = .error p ↔ c.MessageFault lib p := by
  unfold message
  cases h : c.attributes.find? fun a => lib.isIdent a.path "error" with
  | none =>
    have absent : ∀ a ∈ c.attributes, ¬a.Is "error" := by simpa [isIdent_eq doc] using h
    constructor
    · rintro ⟨⟩
      exact .missing absent (called_iff.mpr rfl)
    · intro fault
      cases fault with
      | missing _ called => rw [called_iff.mp called]
      | form leads | notText leads | unreadable leads =>
        exact absurd ((find?_eq_some_iff doc).mpr leads) (by simp [h])
  | some a =>
    have leads := (find?_eq_some_iff doc).mp h
    have first {b : Attribute} (hb : b.Leads "error" c.attributes) : a = b :=
      Option.some.inj (h.symm.trans ((find?_eq_some_iff doc).mpr hb))
    constructor
    · intro error
      cases form : a.form with
      | list ts =>
        simp only [form, messageOfForm] at error
        cases read : lib.literal? ts with
        | none =>
          simp only [read, Except.error.injEq] at error
          subst error
          exact .unreadable leads form read
        | some l =>
          cases l with
          | text => simp [read] at error
          | other =>
            simp only [read, Except.error.injEq] at error
            subst error
            exact .notText leads form read
      | path | value =>
        simp only [form, messageOfForm, Except.error.injEq] at error
        subst error
        exact .form leads (by simp [form])
    · intro fault
      cases fault with
      | missing absent =>
        have mem := List.mem_of_find?_eq_some h
        exact absurd leads.1 (absent a mem)
      | form hb unlisted =>
        obtain rfl := first hb
        cases form : a.form with
        | list ts => exact absurd form (unlisted ts)
        | path | value => simp [form, messageOfForm]
      | notText hb list read | unreadable hb list read =>
        obtain rfl := first hb
        simp only [list, messageOfForm, read]

end

/-- At most one field is tagged, and one that converts is the only field. -/
structure WellTagged (fields : List (Field τ)) : Prop where
  single : fields.Pairwise fun f g => ¬(f.Exposed ∧ g.Exposed)
  alone : ∀ f ∈ fields, f.Converting → fields.length = 1

/-- What is wrong with the tag of the field at `i`. -/
inductive Offends (fields : List (Field τ)) (i : Nat) : Problem → Prop
  | several {j : Nat} {f g : Field τ} (earlier : j < i) (hg : fields[j]? = some g) (tagged : g.Exposed)
      (hf : fields[i]? = some f) (again : f.Exposed) : Offends fields i .severalSources
  | notAlone {f : Field τ} (first : ∀ j < i, ∀ g, fields[j]? = some g → ¬g.Exposed) (hf : fields[i]? = some f)
      (tagged : f.Converting) (others : fields.length ≠ 1) : Offends fields i .conversionNotAlone

def TagFault (fields : List (Field τ)) (p : Problem) : Prop :=
  ∃ i, Offends fields i p ∧ ∀ j < i, ∀ q, ¬Offends fields j q

def Untagged (fields : List (Field τ)) : Prop := ∀ f ∈ fields, ¬f.Exposed

/-- What the search for the underlying error can come to. -/
inductive Search (fields : List (Field τ)) : Except Problem (Option (Source τ)) → Prop
  | untagged (h : Untagged fields) : Search fields (.ok none)
  | tagged {before after : List (Field τ)} {f : Field τ} (split : fields = before ++ f :: after) (hb : Untagged before)
      (tag : f.Exposed) (ha : Untagged after) (alone : f.Converting → fields.length = 1) :
    Search fields (.ok (some ⟨before.length, f.type, decide f.Converting⟩))
  | notAlone {before after : List (Field τ)} {f : Field τ} (split : fields = before ++ f :: after)
      (hb : Untagged before) (tag : f.Converting) (others : fields.length ≠ 1) :
    Search fields (.error .conversionNotAlone)
  | several {before between after : List (Field τ)} {f g : Field τ}
      (split : fields = before ++ f :: (between ++ g :: after)) (hb : Untagged before) (tag : f.Exposed)
      (alone : ¬f.Converting) (hm : Untagged between) (again : g.Exposed) : Search fields (.error .severalSources)

theorem untagged_or_split (fields : List (Field τ)) :
    Untagged fields ∨ ∃ before f after, fields = before ++ f :: after ∧ Untagged before ∧ f.Exposed := by
  cases h : fields.find? fun f => decide f.Exposed with
  | none => exact .inl (by simpa [Untagged] using h)
  | some f =>
    obtain ⟨hf, before, after, split, hb⟩ := List.find?_eq_some_iff_append.mp h
    exact .inr ⟨before, f, after, split, by simpa [Untagged] using hb, by simpa using hf⟩

section

variable (doc : lib.Documented)
include doc

theorem findSource_untagged {before : List (Field τ)} (h : Untagged before) (count index : Nat)
    (found : Option (Source τ)) (rest : List (Field τ)) :
    findSource lib count index found (before ++ rest) = findSource lib count (index + before.length) found rest := by
  induction before generalizing index with
  | nil => rfl
  | cons f before ih =>
    obtain ⟨hf, hb⟩ := List.forall_mem_cons.mp h
    simp [findSource, isSource_eq doc, hf, ih hb, Nat.add_assoc, Nat.add_comm 1]

theorem search_source (c : Case τ) : Search c.fields.toList (c.source lib) := by
  unfold source
  generalize c.fields.toList = fields
  rcases untagged_or_split fields with h | ⟨before, f, after, rfl, hb, tag⟩
  · have whole := findSource_untagged doc h fields.length 0 none []
    rw [List.append_nil] at whole
    rw [whole]
    exact .untagged h
  · rw [findSource_untagged doc hb, Nat.zero_add]
    have tagged : isSource lib f := by simpa [isSource_eq doc] using tag
    by_cases conversion : f.Converting ∧ (before ++ f :: after).length ≠ 1
    · obtain ⟨converting, others⟩ := conversion
      have refused : (converts lib f && (before ++ f :: after).length != 1) = true := by
        simpa only [converts_eq doc, decide_eq_true converting, Bool.true_and, bne_iff_ne] using others
      have stop : findSource lib (before ++ f :: after).length before.length none (f :: after) =
          .error .conversionNotAlone := by
        simp only [findSource, tagged, refused]
        rfl
      rw [stop]
      exact .notAlone rfl hb converting others
    · have alone : f.Converting → (before ++ f :: after).length = 1 := by
        intro converting
        by_contra others
        exact conversion ⟨converting, others⟩
      have keep : (converts lib f && (before ++ f :: after).length != 1) = false := by
        by_cases converting : f.Converting
        · simp [alone converting]
        · simp [converts_eq doc, converting]
      have next : findSource lib (before ++ f :: after).length before.length none (f :: after) =
          findSource lib (before ++ f :: after).length (before.length + 1)
            (some ⟨before.length, f.type, decide f.Converting⟩) after := by
        simp only [findSource, tagged, keep, ← converts_eq doc]
        rfl
      rw [next]
      rcases untagged_or_split after with ha | ⟨between, g, after, rfl, hm, again⟩
      · have rest := findSource_untagged doc ha (before ++ f :: after).length (before.length + 1)
          (some ⟨before.length, f.type, decide f.Converting⟩) []
        rw [List.append_nil] at rest
        rw [rest]
        exact .tagged rfl hb tag ha alone
      · rw [findSource_untagged doc hm]
        have two : ¬f.Converting := by
          intro converting
          have := alone converting
          simp at this
          omega
        have second : isSource lib g := by simpa [isSource_eq doc] using again
        simp only [findSource, second]
        exact .several rfl hb tag two hm again

end

variable {fields : List (Field τ)} {i j : Nat} {s : Option (Source τ)}

theorem Untagged.not_exposed (h : Untagged fields) {rest : List (Field τ)} {g : Field τ} (hj : j < fields.length)
    (hg : (fields ++ rest)[j]? = some g) : ¬g.Exposed := by
  rw [List.getElem?_append_left hj] at hg
  exact h g (List.mem_of_getElem? hg)

theorem Untagged.pairwise (h : Untagged fields) : fields.Pairwise fun f g => ¬(f.Exposed ∧ g.Exposed) := by
  apply List.pairwise_of_forall_mem_list
  rintro f hf g - ⟨tag, -⟩
  exact h f hf tag

theorem Search.wellTagged (h : Search fields (.ok s)) : WellTagged fields := by
  cases h with
  | untagged h => exact ⟨h.pairwise, fun f hf converting => absurd (converting.exposed) (h f hf)⟩
  | @tagged before after f split hb tag ha alone =>
    subst split
    constructor
    · rw [List.pairwise_append, List.pairwise_cons]
      refine ⟨hb.pairwise, ⟨?_, ha.pairwise⟩, ?_⟩
      · rintro g hg ⟨-, again⟩
        exact ha g hg again
      · rintro g hg _ - ⟨again, -⟩
        exact hb g hg again
    · intro g hg converting
      have again := converting.exposed
      rcases List.mem_append.mp hg with hg | hg
      · exact absurd again (hb g hg)
      rcases List.mem_cons.mp hg with rfl | hg
      · exact alone converting
      · exact absurd again (ha g hg)

theorem Offends.tagged (h : Offends fields i p) : ∃ f, fields[i]? = some f ∧ f.Exposed := by
  cases h with
  | several _ _ _ hf again => exact ⟨_, hf, again⟩
  | notAlone _ hf tag => exact ⟨_, hf, tag.exposed⟩

theorem Offends.unique (hp : Offends fields i p) (hq : Offends fields i q) : p = q := by
  cases hp with
  | several earlier hg tagged =>
    cases hq with
    | several => rfl
    | notAlone first => exact absurd tagged (first _ earlier _ hg)
  | notAlone first =>
    cases hq with
    | several earlier hg tagged => exact absurd tagged (first _ earlier _ hg)
    | notAlone => rfl

theorem TagFault.unique (hp : TagFault fields p) (hq : TagFault fields q) : p = q := by
  obtain ⟨i, hi, before⟩ := hp
  obtain ⟨j, hj, before'⟩ := hq
  rcases Nat.lt_trichotomy i j with h | rfl | h
  · exact absurd hi (before' i h p)
  · exact hi.unique hj
  · exact absurd hj (before j h q)

theorem eq_length_of_exposed {before between rest : List (Field τ)} {f g : Field τ} (hb : Untagged before)
    (hm : Untagged between) (hi : i < before.length + 1 + between.length)
    (hg : (before ++ f :: (between ++ rest))[i]? = some g) (tag : g.Exposed) : i = before.length := by
  rcases Nat.lt_trichotomy i before.length with h | h | h
  · exact absurd tag (hb.not_exposed h hg)
  · exact h
  · obtain ⟨k, rfl⟩ := Nat.exists_eq_add_of_lt h
    rw [List.getElem?_append_right (by omega)] at hg
    have shift : before.length + k + 1 - before.length = k + 1 := by omega
    rw [shift, List.getElem?_cons_succ] at hg
    exact absurd tag (hm.not_exposed (by omega) hg)

theorem Search.tagFault (h : Search fields (.error p)) : TagFault fields p := by
  cases h with
  | @notAlone before after f split hb tag others =>
    subst split
    refine ⟨before.length, .notAlone (fun j hj g => hb.not_exposed hj) (by simp) tag others, ?_⟩
    intro j hj q offends
    obtain ⟨g, hg, again⟩ := offends.tagged
    exact hb.not_exposed hj hg again
  | @several before between after f g split hb tag alone hm again =>
    subst split
    have hf : (before ++ f :: (between ++ g :: after))[before.length]? = some f := by simp
    refine ⟨before.length + 1 + between.length, .several (by omega) hf tag ?_ again, ?_⟩
    · rw [List.getElem?_append_right (by omega)]
      have shift : before.length + 1 + between.length - before.length = between.length + 1 := by omega
      rw [shift, List.getElem?_cons_succ]
      simp
    · intro j hj q offends
      obtain ⟨g', hg', tagged⟩ := offends.tagged
      obtain rfl := eq_length_of_exposed hb hm hj hg' tagged
      cases offends with
      | several earlier hg tagged => exact absurd tagged (hb.not_exposed earlier hg)
      | notAlone _ hf' converting =>
        obtain rfl := Option.some.inj (hf.symm.trans hf')
        exact alone converting

theorem WellTagged.not_offends (h : WellTagged fields) : ¬Offends fields i p := by
  rintro (⟨earlier, hg, tagged, hf, again⟩ | ⟨-, hf, tag, others⟩)
  · obtain ⟨hj, rfl⟩ := List.getElem?_eq_some_iff.mp hg
    obtain ⟨hi, rfl⟩ := List.getElem?_eq_some_iff.mp hf
    exact List.pairwise_iff_getElem.mp h.single _ _ hj hi earlier ⟨tagged, again⟩
  · exact others (h.alone _ (List.mem_of_getElem? hf) tag)

section

variable (doc : lib.Documented)
include doc

theorem source_eq_ok_iff : (∃ s, c.source lib = .ok s) ↔ WellTagged c.fields.toList := by
  have search := search_source doc c
  cases h : c.source lib with
  | ok s =>
    rw [h] at search
    simp [search.wellTagged]
  | error p =>
    rw [h] at search
    obtain ⟨i, offends, -⟩ := search.tagFault
    have bad : ¬WellTagged c.fields.toList := fun wt => wt.not_offends offends
    simp [bad]

theorem source_eq_error_iff : c.source lib = .error p ↔ TagFault c.fields.toList p := by
  have search := search_source doc c
  cases h : c.source lib with
  | ok s =>
    rw [h] at search
    have sound : ¬TagFault c.fields.toList p := fun ⟨i, offends, _⟩ => search.wellTagged.not_offends offends
    simp [sound]
  | error q =>
    rw [h] at search
    constructor
    · rintro ⟨⟩
      exact search.tagFault
    · intro fault
      rw [fault.unique search.tagFault]

end

structure Accepted (c : Case τ) : Prop where
  message : ∃ m, c.Says m
  tags : WellTagged c.fields.toList

inductive Fault (lib : Library γ τ) (c : Case τ) : Problem → Prop
  | message {p : Problem} (fault : c.MessageFault lib p) : Fault lib c p
  | tags {p : Problem} {m : String} (said : c.Says m) (fault : TagFault c.fields.toList p) : Fault lib c p

end Case

end PCode.ErrorType
