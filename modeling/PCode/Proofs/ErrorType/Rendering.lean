import PCode.Proofs.ErrorType.Template
/-!
What a template prints with its arguments: each one formatted in the place of its placeholder, and all other text
as it is read. A format may take its precision from the arguments, from each in its turn.
-/

namespace PCode.ErrorType.Template

variable {α : Type}

/-- Formats a value by a format and perhaps a precision, or refuses the format. -/
abbrev Formatter (α : Type) := List Char → Option α → α → Option (List Char)

abbrev Arguments (α : Type) := List (List Char × α)

def Segment.takesTurn : Segment → Bool
  | char _ => false
  | argument _ format => Text.occurs ['.', '*'] (format.getD [])

def turns (ps : List Segment) : Nat := ps.countP Segment.takesTurn

def Segment.print (formatter : Formatter α) (args : Arguments α) (precision : Option α) : Segment → Option (List Char)
  | char c => some [c]
  | argument name format => (args.lookup name).bind (formatter (format.getD []) precision)

/-- `waiting` are the arguments that have not had their turn. -/
def render (formatter : Formatter α) (args : Arguments α) : List α → List Segment → Option (List Char)
  | _, [] => some []
  | waiting, p :: ps =>
    if p.takesTurn then
      match waiting with
      | [] => none
      | v :: waiting => do return (← p.print formatter args (some v)) ++ (← render formatter args waiting ps)
    else do return (← p.print formatter args none) ++ (← render formatter args waiting ps)

def Prints (formatter : Formatter α) (template : List Char) (args : Arguments α) (text : List Char) : Prop :=
  ∃ ps, Reads template ps ∧ render formatter args (args.map Prod.snd) ps = some text

variable {formatter : Formatter α} {args others : Arguments α} {waiting left : List α} {cs text key : List Char}
  {p : Segment} {ps : List Segment} {g : List Char → List Char}

theorem turns_of_free (free : ¬p.takesTurn) (ps : List Segment) : turns (p :: ps) = turns ps :=
  List.countP_cons_of_neg free

theorem turns_of_turn (turn : p.takesTurn) (ps : List Segment) : turns (p :: ps) = turns ps + 1 :=
  List.countP_cons_of_pos turn

theorem render_of_free (free : ¬p.takesTurn) : render formatter args waiting (p :: ps) =
    do return (← p.print formatter args none) ++ (← render formatter args waiting ps) := by
  cases waiting <;> exact if_neg free

theorem render_of_turn (turn : p.takesTurn) (v : α) : render formatter args (v :: waiting) (p :: ps) =
    do return (← p.print formatter args (some v)) ++ (← render formatter args waiting ps) :=
  if_pos turn

theorem render_of_late (turn : p.takesTurn) : render formatter args [] (p :: ps) = none := if_pos turn

theorem prints_iff (h : Reads cs ps) :
    Prints formatter cs args text ↔ render formatter args (args.map Prod.snd) ps = some text := by
  constructor
  · rintro ⟨qs, h', hr⟩
    rwa [h.unique h']
  · intro hr
    exact ⟨ps, h, hr⟩

theorem lookup_map (inj : Function.Injective g) (args : Arguments α) (name : List Char) :
    (args.map (Prod.map g id)).lookup (g name) = args.lookup name := by
  induction args with
  | nil => rfl
  | cons arg args ih =>
    obtain ⟨first, v⟩ := arg
    simp [List.lookup_cons, ih, inj.beq_eq]

theorem lookup_filter {p : List Char → Bool} (h : p key) (args : Arguments α) :
    (args.filter fun arg => p arg.1).lookup key = args.lookup key := by
  induction args with
  | nil => rfl
  | cons arg args ih =>
    obtain ⟨first, v⟩ := arg
    by_cases same : key = first
    · subst same
      simp [h]
    · have apart : (key == first) = false := beq_false_of_ne same
      by_cases kept : p first <;> simp [kept, List.lookup_cons, apart, ih]

theorem takesTurn_mapName (p : Segment) : (p.mapName g).takesTurn = p.takesTurn := by
  cases p <;> rfl

theorem print_map (inj : Function.Injective g) (precision : Option α) (p : Segment) :
    (p.mapName g).print formatter (args.map (Prod.map g id)) precision = p.print formatter args precision := by
  cases p with
  | char c => rfl
  | argument name format => simp [Segment.print, Segment.mapName, lookup_map inj]

theorem render_map (inj : Function.Injective g) (waiting : List α) (ps : List Segment) :
    render formatter (args.map (Prod.map g id)) waiting (ps.map (Segment.mapName g)) = render formatter args waiting ps := by
  induction ps generalizing waiting with
  | nil => rfl
  | cons p ps ih => simp only [List.map_cons, render, takesTurn_mapName, print_map inj, ih]

/-- Only the arguments that are called and those that have a turn matter. -/
theorem render_congr (called : ∀ name ∈ names ps, args.lookup name = others.lookup name)
    (first : waiting.take (turns ps) = left.take (turns ps)) :
    render formatter args waiting ps = render formatter others left ps := by
  induction ps generalizing waiting left with
  | nil => rfl
  | cons p ps ih =>
    rw [names_cons, List.forall_mem_append] at called
    obtain ⟨here, called⟩ := called
    have same (precision : Option α) : p.print formatter args precision = p.print formatter others precision := by
      cases p with
      | char c => rfl
      | argument name format => simp [Segment.print, here name (List.mem_singleton_self name)]
    by_cases turn : p.takesTurn
    · rw [turns_of_turn turn] at first
      cases waiting with
      | nil => cases left with
        | nil => rw [render_of_late turn, render_of_late turn]
        | cons w left => simp at first
      | cons v waiting => cases left with
        | nil => simp at first
        | cons w left =>
          rw [List.take_succ_cons, List.take_succ_cons, List.cons.injEq] at first
          obtain ⟨rfl, first⟩ := first
          rw [render_of_turn turn, render_of_turn turn, same, ih called first]
    · rw [turns_of_free turn] at first
      rw [render_of_free turn, render_of_free turn, same, ih called first]

/-- Prints nothing, and refuses some values as a precision. -/
def refusing (bad : α → Bool) : Formatter α := fun _ precision _ => if precision.any bad then none else some []

def Passes (bad : α → Bool) (args : Arguments α) (waiting : List α) (ps : List Segment) : Prop :=
  (∀ name ∈ names ps, name ∈ args.map Prod.fst) ∧ turns ps ≤ waiting.length ∧ ∀ v ∈ waiting.take (turns ps), ¬bad v

variable {bad : α → Bool}

theorem passes_of_free (free : ¬p.takesTurn) : Passes bad args waiting (p :: ps) ↔
    (∀ name ∈ names [p], name ∈ args.map Prod.fst) ∧ Passes bad args waiting ps := by
  rw [Passes, names_cons, List.forall_mem_append, turns_of_free free, and_assoc]
  rfl

theorem passes_of_turn (turn : p.takesTurn) (v : α) : Passes bad args (v :: waiting) (p :: ps) ↔
    (∀ name ∈ names [p], name ∈ args.map Prod.fst) ∧ ¬bad v ∧ Passes bad args waiting ps := by
  rw [Passes, names_cons, List.forall_mem_append, turns_of_turn turn, List.take_succ_cons, List.forall_mem_cons,
    List.length_cons, Nat.add_le_add_iff_right, Passes]
  tauto

theorem not_passes_of_late (turn : p.takesTurn) : ¬Passes bad args [] (p :: ps) := by
  rintro ⟨-, enough, -⟩
  simp [turns_of_turn turn] at enough

theorem print_refusing_iff {precision : Option α} {name : List Char} {format : Option (List Char)} :
    (Segment.argument name format).print (refusing bad) args precision = some text ↔
      name ∈ args.map Prod.fst ∧ ¬precision.any bad ∧ text = [] := by
  have found : name ∈ args.map Prod.fst ↔ (args.lookup name).isSome := by
    rw [List.lookup_isSome_iff]
    simp
  rw [found, Segment.print]
  cases args.lookup name with
  | none => simp
  | some v =>
    by_cases refused : precision.any bad <;> simp [refusing, refused]

theorem append_eq_some_iff {a b : Option (List Char)} :
    (do return (← a) ++ (← b)) = some text ↔ ∃ front, a = some front ∧ ∃ rest, b = some rest ∧ text = front ++ rest := by
  cases a <;> cases b <;> simp [eq_comm]

theorem render_refusing_iff :
    render (refusing bad) args waiting ps = some text ↔ Passes bad args waiting ps ∧ text = chars ps := by
  induction ps generalizing waiting text with
  | nil => simp [render, Passes, names, turns, chars]
  | cons p ps ih =>
    cases p with
    | char c =>
      have free : ¬(Segment.char c).takesTurn := by simp [Segment.takesTurn]
      rw [render_of_free free, append_eq_some_iff, passes_of_free free]
      simp [Segment.print, ih, names, chars]
    | argument name format =>
      by_cases turn : (Segment.argument name format).takesTurn
      · cases waiting with
        | nil => simp [render_of_late turn, not_passes_of_late turn]
        | cons v waiting =>
          rw [render_of_turn turn, append_eq_some_iff, passes_of_turn turn]
          simp only [print_refusing_iff, ih]
          simp [names, chars, and_assoc]
      · rw [render_of_free turn, append_eq_some_iff, passes_of_free turn]
        simp only [print_refusing_iff, ih]
        simp [names, chars, and_assoc]

end PCode.ErrorType.Template
