import PCode.ErrorType.Printer
import PCode.Proofs.ErrorType.Binding
import PCode.Proofs.ErrorType.Fault
/-!
The generated source, token by token. Each case has an arm that writes its message. A case with an underlying error
has an arm that returns it, and one whose only field converts is built from the value of that field.
-/

namespace PCode.ErrorType

open Template

variable {γ τ : Type}

/-- A path from the root of all names. -/
def rooted (path : List String) : List Token := path.flatMap fun name => [.mark ':', .mark ':', .word name]

/-- `&(dyn ::std::error::Error + 'static)` -/
def errorObject : List Token :=
  [.mark '&', .mark '(', .word "dyn"] ++ rooted ["std", "error", "Error"] ++
    [.mark '+', .mark '\x27', .word "static", .mark ')']

/-- `=> write!(f, template, argument = argument, …),` -/
def writing (template : String) (arguments : List String) : List Token :=
  [.mark '=', .mark '>', .word "write", .mark '!', .mark '(', .word "f", .mark ',', .text template] ++
    arguments.flatMap (fun name => [.mark ',', .word name, .mark '=', .word name]) ++ [.mark ')', .mark ',']

/-- `=> ::std::option::Option::Some(__source as &(dyn ::std::error::Error + 'static)),` -/
def returning : List Token :=
  [.mark '=', .mark '>'] ++ rooted ["std", "option", "Option", "Some"] ++
    [.mark '(', .word "__source", .word "as"] ++ errorObject ++ [.mark ')', .mark ',']

namespace Case

variable {c : Case τ} {m : String} {s : Source τ}

/-- `Self`, or `Self::` and the name of the variant. -/
def path (c : Case τ) : List Token := .word "Self" :: rooted c.variant.toList

/-- The arm that writes the message `m`. It binds the fields that the message mentions, and hands them on. -/
inductive Displays (c : Case τ) (m : String) : List Token → Prop
  | unit (h : c.fields = .unit) : Displays c m (c.path ++ writing m [])
  | tuple {fields : List (Field τ)} {template : String} {used : String → Bool} (h : c.fields = .tuple fields)
      (ht : template.toList = marked (numerals (List.range fields.length)) m.toList)
      (hu : ∀ name, used name ↔ Mentions name.toList template.toList) : Displays c m
    (c.path ++ [.mark '('] ++
      [.mark ','].intercalate ((List.range fields.length).map fun i =>
        [.word (if used ("f" ++ toString i) then "f" ++ toString i else "_")]) ++
      [.mark ')'] ++
      writing template (((List.range fields.length).map fun i => "f" ++ toString i).filter used))
  | named {fields : List (String × Field τ)} {used : String → Bool} (h : c.fields = .named fields)
      (hu : ∀ name, used name ↔ Mentions name.toList m.toList) : Displays c m
    (c.path ++ [.mark '\x7b'] ++
      ((fields.map Prod.fst).filter used).flatMap (fun name => [.word name, .mark ',']) ++
      [.mark '.', .mark '.', .mark '\x7d'] ++ writing m ((fields.map Prod.fst).filter used))

/-- The arm that returns the underlying error. It binds the field that is tagged and no other. -/
inductive Returns (c : Case τ) : List Token → Prop
  | tuple {before after : List (Field τ)} {f : Field τ} (h : c.fields = .tuple (before ++ f :: after))
      (tag : f.Exposed) : Returns c
    (c.path ++ [.mark '('] ++
      [.mark ','].intercalate
        (before.map (fun _ => [.word "_"]) ++ [.word "__source"] :: after.map fun _ => [.word "_"]) ++
      [.mark ')'] ++ returning)
  | named {before after : List (String × Field τ)} {name : String} {f : Field τ}
      (h : c.fields = .named (before ++ (name, f) :: after)) (tag : f.Exposed) : Returns c
    (c.path ++
      [.mark '\x7b', .word name, .mark ':', .word "__source", .mark ',', .mark '.', .mark '.', .mark '\x7d'] ++
      returning)

/-- The case built of a value of the type of its only field. -/
inductive Builds (c : Case τ) : τ → List Token → Prop
  | tuple {f : Field τ} (h : c.fields = .tuple [f]) (tag : f.Converting) :
    Builds c f.type (c.path ++ [.mark '(', .word "source", .mark ')'])
  | named {name : String} {f : Field τ} (h : c.fields = .named [(name, f)]) (tag : f.Converting) :
    Builds c f.type (c.path ++ [.mark '\x7b', .word name, .mark ':', .word "source", .mark '\x7d'])

end Case

/-- `fn fmt(&self, f: &mut ::std::fmt::Formatter<'_>) -> ::std::fmt::Result` -/
def formatSignature : List Token :=
  [.word "fn", .word "fmt", .mark '(', .mark '&', .word "self", .mark ',', .word "f", .mark ':', .mark '&',
      .word "mut"] ++
    rooted ["std", "fmt", "Formatter"] ++
    [.mark '<', .mark '\x27', .word "_", .mark '>', .mark ')', .mark '-', .mark '>'] ++
    rooted ["std", "fmt", "Result"]

def formatting (arms : List Token) : List Token :=
  formatSignature ++ [.mark '\x7b', .word "match", .word "self", .mark '\x7b'] ++ arms ++
    [.mark '\x7d', .mark '\x7d']

/-- `#[allow(unreachable_patterns)] fn source(&self) -> ::std::option::Option<` -/
def sourceSignature : List Token :=
  [.mark '#', .mark '[', .word "allow", .mark '(', .word "unreachable_patterns", .mark ')', .mark ']', .word "fn",
      .word "source", .mark '(', .mark '&', .word "self", .mark ')', .mark '-', .mark '>'] ++
    rooted ["std", "option", "Option"] ++ [.mark '<']

/-- `_ => ::std::option::Option::None,` -/
def lastArm : List Token :=
  [.word "_", .mark '=', .mark '>'] ++ rooted ["std", "option", "Option", "None"] ++ [.mark ',']

def sourcing (arms : List Token) : List Token :=
  sourceSignature ++ errorObject ++ [.mark '>', .mark '\x7b', .word "match", .word "self", .mark '\x7b'] ++ arms ++
    lastArm ++ [.mark '\x7d', .mark '\x7d']

/-- `fn from(source: type) -> Self { body }` -/
def converting (type body : List Token) : List Token :=
  [.word "fn", .word "from", .mark '(', .word "source", .mark ':'] ++ type ++
    [.mark ')', .mark '-', .mark '>', .word "Self", .mark '\x7b'] ++ body ++ [.mark '\x7d']

namespace Description

variable (lib : Library γ τ) (d : Description γ τ)

/-- `impl<parameters> trait for name<arguments> where … { content }` -/
def implementing (trait content : List Token) : List Token :=
  [.word "impl"] ++ (lib.split d.generics).parameters ++ trait ++ [.word "for", .word d.name] ++
    (lib.split d.generics).arguments ++ (lib.split d.generics).whereClause ++ [.mark '\x7b'] ++ content ++
    [.mark '\x7d']

end Description

theorem intercalate_cons (sep x : List Token) (xs : List (List Token)) :
    sep.intercalate (x :: xs) = x ++ xs.flatMap fun y => sep ++ y := by
  induction xs generalizing x with
  | nil => simp
  | cons y ys ih => rw [List.intercalate_cons_cons, ih, List.flatMap_cons, List.append_assoc, List.append_assoc]

theorem pathTokens_eq (c : Case τ) : pathTokens c.variant = c.path := by
  unfold Case.path
  cases c.variant <;> rfl

theorem DisplayArm.tokens_eq (a : DisplayArm) :
    a.tokens = pathTokens a.variant ++ a.pattern.tokens ++ writing a.template a.arguments := by
  simp [tokens, writing, arrow, parenthesized, Token.commaSeparated, intercalate_cons, List.flatMap_map]

theorem errorReference_eq : errorReference = errorObject := by decide +kernel

theorem SourceArm.tokens_eq (a : SourceArm) :
    a.tokens = pathTokens a.variant ++ a.pattern.tokens ++ returning := by
  have some : Token.ofSource "::std::option::Option::Some" = rooted ["std", "option", "Option", "Some"] := by
    decide +kernel
  simp [tokens, returning, arrow, parenthesized, some, errorReference_eq, binding]

namespace Case

variable {c : Case τ} {s : Source τ} {before after : List (Field τ)} {f : Field τ}

theorem displays_ofCase (c : Case τ) (m : String) : c.Displays m (DisplayArm.ofCase c m).tokens := by
  rw [DisplayArm.tokens_eq]
  cases h : c.fields with
  | unit =>
    have arm := Displays.unit (m := m) h
    simpa [DisplayArm.ofCase, h, pathTokens_eq, Pattern.tokens] using arm
  | tuple fields =>
    have renamed := String.toList_ofList.trans (rename_eq_marked fields.length m.toList)
    have arm := Displays.tuple (m := m) h renamed fun name => mentions_iff
    have name (i : Nat) : positional i = "f" ++ toString i := rfl
    have slot (b : Bool) (name : String) : (if b then some name else none).getD "_" = if b then name else "_" := by
      cases b <;> rfl
    simpa [DisplayArm.ofCase, h, pathTokens_eq, Pattern.tokens, parenthesized, Token.commaSeparated, name,
      Function.comp_def, slot, filterMap_ite, List.filter_map] using arm
  | named fields =>
    have arm := Displays.named (m := m) h fun name => mentions_iff
    simpa [DisplayArm.ofCase, h, pathTokens_eq, Pattern.tokens, braced, List.flatMap_map] using arm

/-- Of the slots in their order, one binds the field at that position. -/
theorem map_slots {β : Type} (before after : List (Field τ)) (f : Field τ) (x y : β) :
    ((List.range (before ++ f :: after).length).map fun i => if i = before.length then x else y) =
      before.map (fun _ => y) ++ x :: after.map fun _ => y := by
  apply List.ext_getElem
  · simp
  · intro i _ _
    rcases Nat.lt_trichotomy i before.length with h | rfl | h
    · simp [List.getElem_append_left, h, Nat.ne_of_lt h]
    · simp
    · obtain ⟨k, rfl⟩ := Nat.exists_eq_add_of_lt h
      simp [List.getElem_append_right, Nat.add_assoc]

theorem exists_of_map_snd {fields : List (String × Field τ)} (split : fields.map Prod.snd = before ++ f :: after) :
    ∃ first name rest, fields = first ++ (name, f) :: rest ∧ first.length = before.length ∧
      rest.length = after.length := by
  obtain ⟨first, others, rfl, rfl, ho⟩ := List.map_eq_append_iff.mp split
  obtain ⟨⟨name, g⟩, rest, rfl, rfl, rfl⟩ := List.map_eq_cons_iff.mp ho
  exact ⟨first, name, rest, rfl, by simp, by simp⟩

theorem returns_ofCase (split : c.fields.toList = before ++ f :: after) (tag : f.Exposed)
    (hs : s.index = before.length) : c.Returns (SourceArm.ofCase c s).tokens := by
  rw [SourceArm.tokens_eq]
  cases h : c.fields with
  | unit =>
    rw [h] at split
    cases before <;> cases split
  | tuple fields =>
    rw [h] at split
    obtain rfl : fields = before ++ f :: after := split
    have slot (i : Nat) : [Token.word ((if i = before.length then some SourceArm.binding else none).getD "_")] =
        if i = before.length then [.word "__source"] else [.word "_"] := by
      split <;> rfl
    have arm := Returns.tuple h tag
    rw [← map_slots] at arm
    simpa only [SourceArm.ofCase, h, hs, pathTokens_eq, Pattern.tokens, parenthesized, Token.commaSeparated,
      List.map_map, Function.comp_def, slot, List.append_assoc, List.cons_append, List.nil_append] using arm
  | named fields =>
    rw [h] at split
    obtain ⟨first, name, rest, rfl, hl, -⟩ := exists_of_map_snd split
    have arm := Returns.named h tag
    simpa [SourceArm.ofCase, h, hs, ← hl, pathTokens_eq, Pattern.tokens, braced, SourceArm.binding] using arm

theorem builds_ofCase (only : c.fields.toList = [f]) (tag : f.Converting) (hs : s.index = 0)
    (ht : s.type = f.type) : c.Builds (Conversion.ofCase c s).type (Conversion.ofCase c s).body := by
  have type : (Conversion.ofCase c s).type = f.type := ht
  rw [type]
  cases h : c.fields with
  | unit =>
    rw [h] at only
    cases only
  | tuple fields =>
    rw [h] at only
    obtain rfl : fields = [f] := only
    have built := Builds.tuple h tag
    simpa [Conversion.body, Conversion.ofCase, h, pathTokens_eq, parenthesized] using built
  | named fields =>
    rw [h] at only
    have split : fields.map Prod.snd = [] ++ f :: [] := only
    obtain ⟨first, name, rest, rfl, hf, hr⟩ := exists_of_map_snd split
    obtain rfl := List.eq_nil_of_length_eq_zero hf
    obtain rfl := List.eq_nil_of_length_eq_zero hr
    have built := Builds.named h tag
    simpa [Conversion.body, Conversion.ofCase, h, hs, pathTokens_eq, braced] using built

end Case

namespace Description

variable (lib : Library γ τ) (d : Description γ τ)

theorem implementation_eq (trait content : List Token) : d.implementation lib trait content =
    d.implementing lib trait content := by
  simp [implementation, implementing, braced]

theorem displayImplementation_eq (arms : List DisplayArm) : d.displayImplementation lib arms =
    d.implementing lib (rooted ["std", "fmt", "Display"]) (formatting (arms.flatMap DisplayArm.tokens)) := by
  have trait : Token.ofSource "::std::fmt::Display" = rooted ["std", "fmt", "Display"] := by decide +kernel
  have signature : Token.ofSource "fn fmt(&self, f: &mut ::std::fmt::Formatter<" ++ Token.lifetime "_" ++
      Token.ofSource ">) -> ::std::fmt::Result" = formatSignature := by decide +kernel
  rw [displayImplementation, implementation_eq, trait, signature]
  simp [formatting, matchSelf, braced]

theorem sourceFunction_eq (arms : List SourceArm) : sourceFunction arms =
    if arms = [] then [] else sourcing (arms.flatMap SourceArm.tokens) := by
  have signature : Token.ofSource "#[allow(unreachable_patterns)] fn source(&self) -> ::std::option::Option<" =
      sourceSignature := by decide +kernel
  have last : Token.ofSource "_ => ::std::option::Option::None," = lastArm := by decide +kernel
  rw [sourceFunction, signature, last, errorReference_eq]
  cases arms <;> simp [sourcing, matchSelf, braced]

theorem errorImplementation_eq (arms : List SourceArm) : d.errorImplementation lib arms =
    d.implementing lib (rooted ["std", "error", "Error"]) (sourceFunction arms) := by
  have trait : Token.ofSource "::std::error::Error" = rooted ["std", "error", "Error"] := by decide +kernel
  rw [errorImplementation, implementation_eq, trait]

theorem conversionImplementation_eq (c : Conversion τ) : d.conversionImplementation lib c =
    d.implementing lib (rooted ["std", "convert", "From"] ++ [.mark '<'] ++ lib.typeTokens c.type ++ [.mark '>'])
      (converting (lib.typeTokens c.type) c.body) := by
  have trait : Token.ofSource "::std::convert::From<" = rooted ["std", "convert", "From"] ++ [.mark '<'] := by
    decide +kernel
  have first : Token.ofSource "fn from(source:" =
      [.word "fn", .word "from", .mark '(', .word "source", .mark ':'] := by decide +kernel
  have second : Token.ofSource ") -> Self" = [.mark ')', .mark '-', .mark '>', .word "Self"] := by decide +kernel
  rw [conversionImplementation, implementation_eq, trait, first, second]
  simp [converting, braced]

end Description

end PCode.ErrorType
