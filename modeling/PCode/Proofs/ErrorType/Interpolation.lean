import PCode.Proofs.ErrorType.Binding
/-!
The display arm of a case against the message of the case. The arm does what the message asks for, but for text
between doubled braces that reads like a placeholder, precisions that come from fields left out, and a field that
goes by the name of the formatter.
-/

namespace PCode.ErrorType

open Template

variable {α τ : Type} {c : Case τ} {message : String} {values : List α} {ps : List Segment}

/-- The variable that every arm writes to. -/
def DisplayArm.target : List Char := ['f']

/-- The arm binds and hands on the fields that the message calls by their keys, none of them hides what the arm writes
to, and the template prints with them what the message asks for. -/
structure DisplayArm.Faithful (arm : DisplayArm) (fields : Fields τ) (message : String) (ps : List Segment) : Prop where
  arguments : arm.arguments.map String.toList = (fields.keys.filter fun key => key ∈ names ps).map fields.label
  bindings : ∀ {α : Type} (values : List α), values.length = fields.keys.length →
    arm.pattern.bindings fields.keys values =
      ((fields.keys.zip values).filter fun arg => arg.1 ∈ names ps).map (Prod.map fields.label id)
  unhidden : target ∉ arm.arguments.map String.toList
  prints : ∀ {α : Type} (formatter : Formatter α) (values : List α), values.length = fields.keys.length → ∀ text,
    Prints formatter arm.template.toList (arm.environment fields.keys values) text ↔
      Prints formatter message.toList (fields.keys.zip values) text

/-- Whatever the message takes for an argument is a field, under its own key. A raw identifier that is called without
its prefix is not, and neither is an index with leading zeros. -/
structure Calls (fields : Fields τ) (ps : List Segment) : Prop where
  called : ∀ name ∈ names ps, name ∈ fields.keys
  enough : turns ps ≤ fields.keys.length

/-- The text shows no placeholder that would be renamed. -/
def Spelled (fields : Fields τ) (ps : List Segment) : Prop :=
  ∀ key ∈ fields.keys, Shows (ends key) ps → fields.label key = key

/-- The text shows no placeholder but of fields that are called as well, and so are the fields whose turn it is to be
a precision. -/
structure Unambiguous (fields : Fields τ) (ps : List Segment) : Prop where
  spelled : Spelled fields ps
  mentioned : ∀ key ∈ fields.keys, Shows (ends (fields.label key)) ps → key ∈ names ps
  precise : ∀ key ∈ fields.keys.take (turns ps), key ∈ names ps
  unhidden : ∀ key ∈ names ps, fields.label key ≠ DisplayArm.target

/-- The segments of the template in which a message ends up. -/
def Fields.rewritten (fields : Fields τ) (ps : List Segment) : List Segment :=
  match fields with
  | .tuple _ => markedSegments (fields.keys.flatMap ends) ps
  | _ => ps

theorem template_reads (wf : c.fields.WellNamed) (reads : Reads message.toList ps)
    (called : ∀ name ∈ names ps, name ∈ c.fields.keys) :
    Reads (DisplayArm.ofCase c message).template.toList (c.fields.rewritten ps) := by
  cases h : c.fields with
  | unit | named => simpa [DisplayArm.ofCase, h, Fields.rewritten] using reads
  | tuple fields =>
    have heads : numerals (List.range fields.length) = c.fields.keys.flatMap ends := by
      simp [h, numerals, Fields.keys, List.flatMap_map]
    have sub : ∀ name ∈ names ps, ends name ⊆ c.fields.keys.flatMap ends := by
      intro name mem head hh
      exact List.mem_flatMap.mpr ⟨name, called name mem, hh⟩
    have marked := reads.marked wf.ended sub
    have renamed : Template.marked (c.fields.keys.flatMap ends) message.toList = rename fields.length message.toList := by
      rw [rename_eq_marked, heads]
    rw [renamed] at marked
    simpa [DisplayArm.ofCase, h, Fields.rewritten] using marked

theorem shows_keys_iff {keys : List (List Char)} : Shows (keys.flatMap ends) ps ↔ ∃ key ∈ keys, Shows (ends key) ps := by
  simp only [Shows, List.mem_flatMap]
  constructor
  · rintro ⟨head, ⟨key, mem, hh⟩, h⟩
    exact ⟨key, mem, head, hh, h⟩
  · rintro ⟨key, mem, head, hh, h⟩
    exact ⟨head, ⟨key, mem, hh⟩, h⟩

variable {fields : Fields τ} {key : List Char}

theorem spelled_tuple_iff {list : List (Field τ)} (h : fields = .tuple list) :
    Spelled fields ps ↔ ¬Shows (fields.keys.flatMap ends) ps := by
  simp [Spelled, shows_keys_iff, h, Fields.label]

theorem rewritten_of_spelled (h : Spelled fields ps) : fields.rewritten ps = ps.map (Segment.mapName fields.label) := by
  cases hf : fields with
  | unit | named =>
    have same : Segment.mapName id = id := by
      funext p
      cases p <;> rfl
    exact (ps.map_id.symm).trans (congrArg ps.map same.symm)
  | tuple list =>
    rw [← hf]
    have unshown := (spelled_tuple_iff hf).mp h
    rw [hf] at unshown ⊢
    exact markedSegments_of_not_shows unshown

theorem spelled_iff : Spelled fields ps ↔ chars (fields.rewritten ps) = chars ps := by
  cases hf : fields with
  | unit | named => simp [Spelled, Fields.rewritten, Fields.label]
  | tuple list =>
    rw [spelled_tuple_iff rfl]
    exact chars_markedSegments_iff.symm

theorem uses_iff {arm : DisplayArm} (reads : Reads arm.template.toList (ps.map (Segment.mapName fields.label)))
    (bare : Bare key) : arm.uses fields key ↔ key ∈ names ps ∨ Shows (ends (fields.label key)) ps := by
  rw [DisplayArm.uses, mentions_iff, String.toList_ofList, mentions_iff_of_reads reads (Fields.bare_label bare),
    names_map_mapName, shows_map_mapName_iff, List.mem_map_of_injective fields.label_injective]

theorem map_snd_args (h : values.length = fields.keys.length) : (fields.keys.zip values).map Prod.snd = values :=
  List.map_snd_zip h.le

theorem map_fst_args (h : values.length = fields.keys.length) : (fields.keys.zip values).map Prod.fst = fields.keys :=
  List.map_fst_zip h.ge

theorem take_filter {β : Type} {p : β → Bool} {l : List β} {n : Nat} (h : ∀ x ∈ l.take n, p x) :
    (l.filter p).take n = l.take n := by
  induction l generalizing n with
  | nil => simp
  | cons x l ih =>
    cases n with
    | zero => rfl
    | succ n =>
      obtain ⟨first, h⟩ := List.forall_mem_cons.mp h
      rw [List.filter_cons_of_pos first, List.take_succ_cons, List.take_succ_cons, ih h]

section

variable (wf : c.fields.WellNamed) (reads : Reads message.toList ps) (calls : Calls c.fields ps)

include reads calls in
/-- A message that is to print nothing for its fields prints its text, if no precision is refused. -/
theorem prints_refusing_iff (bad : α → Bool) {text : List Char} (h : values.length = c.fields.keys.length) :
    Prints (refusing bad) message.toList (c.fields.keys.zip values) text ↔
      (∀ v ∈ values.take (turns ps), ¬bad v) ∧ text = chars ps := by
  rw [prints_iff reads, render_refusing_iff, Passes, map_snd_args h, map_fst_args h, h, and_iff_right calls.called,
    and_iff_right calls.enough]

include wf reads calls in
theorem uses_iff_of_spelled (spelled : Spelled c.fields ps) (mem : key ∈ c.fields.keys) :
    (DisplayArm.ofCase c message).uses c.fields key ↔ key ∈ names ps ∨ Shows (ends (c.fields.label key)) ps := by
  have template := template_reads wf reads calls.called
  rw [rewritten_of_spelled spelled] at template
  exact uses_iff template (wf.bare key mem)

section

variable (faithful : (DisplayArm.ofCase c message).Faithful c.fields message ps)

include wf reads calls faithful

theorem spelled_of_faithful : Spelled c.fields ps := by
  -- With nothing printed for the fields, only the text is left, and a renamed one is longer.
  have printed := (prints_refusing_iff reads calls (fun _ => false) rfl).mpr ⟨by simp, rfl⟩
  rw [← faithful.prints _ _ rfl, prints_iff (template_reads wf reads calls.called), render_refusing_iff] at printed
  exact spelled_iff.mpr printed.2.symm

theorem mentioned_of_faithful (mem : key ∈ c.fields.keys) (shown : Shows (ends (c.fields.label key)) ps) :
    key ∈ names ps := by
  have spelled := spelled_of_faithful wf reads calls faithful
  have used := (uses_iff_of_spelled wf reads calls spelled mem).mpr (Or.inr shown)
  have same := faithful.arguments
  rw [arguments_ofCase] at same
  have passed := List.mem_map_of_mem (f := c.fields.label) (List.mem_filter.mpr ⟨mem, used⟩)
  rw [same, List.mem_map_of_injective c.fields.label_injective] at passed
  simpa using (List.mem_filter.mp passed).2

omit reads calls in
/-- With the keys for values, what the arm hands on is called. -/
theorem called_of_mem_environment
    (mem : key ∈ ((DisplayArm.ofCase c message).environment c.fields.keys c.fields.keys).map Prod.snd) : key ∈ names ps := by
  rw [environment_ofCase message wf.nodup rfl, faithful.bindings _ rfl, List.map_map] at mem
  obtain ⟨arg, ha, rfl⟩ := List.mem_map.mp mem
  obtain ⟨hz, called⟩ := List.mem_filter.mp ha
  rw [List.zip, List.zipWith_self] at hz
  obtain ⟨key, -, rfl⟩ := List.mem_map.mp hz
  simpa using called

/-- The arm prints even if every precision that the message does not call is refused, and so does the message. -/
theorem precise_of_faithful : ∀ key ∈ c.fields.keys.take (turns ps), key ∈ names ps := by
  have template := template_reads wf reads calls.called
  have printed := (prints_refusing_iff reads calls (fun _ => false) rfl).mpr ⟨by simp, rfl⟩
  rw [← faithful.prints _ _ rfl, prints_iff template, render_refusing_iff] at printed
  obtain ⟨⟨called, enough, -⟩, text⟩ := printed
  have again : Prints (refusing fun key => key ∉ names ps) (DisplayArm.ofCase c message).template.toList
      ((DisplayArm.ofCase c message).environment c.fields.keys c.fields.keys) (chars ps) := by
    rw [prints_iff template, render_refusing_iff]
    refine ⟨⟨called, enough, ?_⟩, text⟩
    intro key mem
    simpa using called_of_mem_environment wf faithful (List.mem_of_mem_take mem)
  rw [faithful.prints _ _ rfl, prints_refusing_iff reads calls _ rfl] at again
  simpa using again.1

omit wf reads in
theorem unhidden_of_faithful : ∀ key ∈ names ps, c.fields.label key ≠ DisplayArm.target := by
  intro key mem hides
  have unhidden := faithful.unhidden
  rw [faithful.arguments, ← hides, List.mem_map_of_injective c.fields.label_injective] at unhidden
  exact unhidden (List.mem_filter.mpr ⟨calls.called key mem, by simpa using mem⟩)

end

section

variable (h : Unambiguous c.fields ps)

include wf reads calls h

theorem uses_of_unambiguous : ∀ key ∈ c.fields.keys,
    (DisplayArm.ofCase c message).uses c.fields key = decide (key ∈ names ps) := by
  intro key mem
  rw [Bool.eq_iff_iff, uses_iff_of_spelled wf reads calls h.spelled mem, decide_eq_true_iff]
  exact or_iff_left_of_imp (h.mentioned key mem)

theorem arguments_of_unambiguous : (DisplayArm.ofCase c message).arguments.map String.toList =
    (c.fields.keys.filter fun key => key ∈ names ps).map c.fields.label := by
  rw [arguments_ofCase, List.filter_congr (uses_of_unambiguous wf reads calls h)]

theorem bindings_of_unambiguous (hl : values.length = c.fields.keys.length) :
    (DisplayArm.ofCase c message).pattern.bindings c.fields.keys values =
      ((c.fields.keys.zip values).filter fun arg => arg.1 ∈ names ps).map (Prod.map c.fields.label id) := by
  rw [bindings_ofCase message wf.nodup hl]
  apply congrArg (List.map _) (List.filter_congr ?_)
  intro arg mem
  exact uses_of_unambiguous wf reads calls h arg.1 (List.of_mem_zip mem).1

omit wf reads calls in
theorem take_turns_of_unambiguous (hl : values.length = c.fields.keys.length) :
    (((c.fields.keys.zip values).filter fun arg => arg.1 ∈ names ps).map Prod.snd).take (turns ps) =
      ((c.fields.keys.zip values).map Prod.snd).take (turns ps) := by
  rw [← List.map_take, ← List.map_take, take_filter]
  intro arg mem
  have key := List.mem_map_of_mem (f := Prod.fst) mem
  rw [List.map_take, map_fst_args hl] at key
  simpa using h.precise arg.1 key

theorem prints_of_unambiguous (formatter : Formatter α) (hl : values.length = c.fields.keys.length) (text : List Char) :
    Prints formatter (DisplayArm.ofCase c message).template.toList
        ((DisplayArm.ofCase c message).environment c.fields.keys values) text ↔
      Prints formatter message.toList (c.fields.keys.zip values) text := by
  have template := template_reads wf reads calls.called
  rw [rewritten_of_spelled h.spelled] at template
  rw [prints_iff template, prints_iff reads, environment_ofCase message wf.nodup hl,
    bindings_of_unambiguous wf reads calls h hl, render_map c.fields.label_injective, List.map_map]
  apply Eq.congr_left
  apply render_congr
  · intro name mem
    exact lookup_filter (p := fun name => decide (name ∈ names ps)) (by simpa using mem) _
  · exact take_turns_of_unambiguous h hl

theorem unhidden_of_unambiguous : DisplayArm.target ∉ (DisplayArm.ofCase c message).arguments.map String.toList := by
  rw [arguments_of_unambiguous wf reads calls h]
  intro mem
  obtain ⟨key, mem, hides⟩ := List.mem_map.mp mem
  exact h.unhidden key (by simpa using (List.mem_filter.mp mem).2) hides

end
end

theorem faithful_iff_unambiguous (wf : c.fields.WellNamed) (reads : Reads message.toList ps) (calls : Calls c.fields ps) :
    (DisplayArm.ofCase c message).Faithful c.fields message ps ↔ Unambiguous c.fields ps := by
  constructor
  · intro faithful
    constructor
    case spelled => exact spelled_of_faithful wf reads calls faithful
    case mentioned => exact fun key => mentioned_of_faithful wf reads calls faithful
    case precise => exact precise_of_faithful wf reads calls faithful
    case unhidden => exact unhidden_of_faithful calls faithful
  · intro h
    constructor
    case arguments => exact arguments_of_unambiguous wf reads calls h
    case bindings => exact fun values => bindings_of_unambiguous wf reads calls h
    case unhidden => exact unhidden_of_unambiguous wf reads calls h
    case prints => exact fun formatter values => prints_of_unambiguous wf reads calls h formatter

theorem faithful_padded : DisplayArm.Faithful
    (.ofCase ⟨"Error", some "Range", [], .tuple [⟨(), []⟩, ⟨(), []⟩]⟩ "\x7b1:>4\x7d \x7b\x7bx\x7d\x7d")
    (.tuple [⟨(), []⟩, ⟨(), []⟩]) "\x7b1:>4\x7d \x7b\x7bx\x7d\x7d"
    [.argument ['1'] (some ['>', '4']), .char ' ', .char '\x7b', .char 'x', .char '\x7d'] := by
  have text : Reads [' ', '\x7b', '\x7b', 'x', '\x7d', '\x7d'] [.char ' ', .char '\x7b', .char 'x', .char '\x7d'] :=
    .char (by decide) (.opening (.char (by decide) (.closing .nil)))
  have reads : Reads "\x7b1:>4\x7d \x7b\x7bx\x7d\x7d".toList (.argument ['1'] (some ['>', '4']) :: _) :=
    @Reads.argument ['1'] _ (some ['>', '4']) _ (by decide) (by simp [Bare]) (by simp) text
  apply (faithful_iff_unambiguous (c := ⟨"Error", some "Range", [], .tuple [⟨(), []⟩, ⟨(), []⟩]⟩) trivial reads ⟨by decide, by decide⟩).mpr
  constructor
  case spelled =>
    unfold Spelled
    decide
  case mentioned => decide
  case precise => decide
  case unhidden => decide

/-- Text that reads like a placeholder is taken for one: a field that no placeholder calls is handed on, and the name
that a placeholder gets is printed in the text. -/
theorem not_faithful_of_shown :
    (∃ ps, Reads "\x7b\x7ba\x7d\x7d".toList ps ∧ Calls (.named [("a", ⟨(), []⟩)]) ps ∧
      ¬DisplayArm.Faithful (.ofCase ⟨"Error", some "Shown", [], .named [("a", ⟨(), []⟩)]⟩ "\x7b\x7ba\x7d\x7d")
        (.named [("a", ⟨(), []⟩)]) "\x7b\x7ba\x7d\x7d" ps) ∧
    ∃ ps, Reads "\x7b0\x7d \x7b\x7b0\x7d\x7d".toList ps ∧ Calls (.tuple [⟨(), []⟩]) ps ∧
      ¬DisplayArm.Faithful (.ofCase ⟨"Error", some "Shown", [], .tuple [⟨(), []⟩]⟩ "\x7b0\x7d \x7b\x7b0\x7d\x7d")
        (.tuple [⟨(), []⟩]) "\x7b0\x7d \x7b\x7b0\x7d\x7d" ps := by
  constructor
  · refine ⟨[.char '\x7b', .char 'a', .char '\x7d'], .opening (.char (by decide) (.closing .nil)), ⟨by decide, by decide⟩, ?_⟩
    intro faithful
    have arguments := faithful.arguments
    revert arguments
    decide
  · have text : Reads [' ', '\x7b', '\x7b', '0', '\x7d', '\x7d'] [.char ' ', .char '\x7b', .char '0', .char '\x7d'] :=
      .char (by decide) (.opening (.char (by decide) (.closing .nil)))
    have reads : Reads "\x7b0\x7d \x7b\x7b0\x7d\x7d".toList (.argument ['0'] none :: _) :=
      @Reads.argument ['0'] _ none _ (by decide) (by simp [Bare]) (by simp) text
    refine ⟨_, reads, ⟨by decide, by decide⟩, ?_⟩
    intro faithful
    have spelled := spelled_of_faithful (c := ⟨"Error", some "Shown", [], .tuple [⟨(), []⟩]⟩) trivial reads
      ⟨by decide, by decide⟩ faithful
    exact absurd (spelled ['0'] (by decide) (by decide)) (by decide)

end PCode.ErrorType
