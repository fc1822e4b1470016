import PCode.Proofs.ErrorType.Renaming
/-!
Templates as they are read: characters that stand for themselves, doubled braces for single ones, and arguments
by name. The search for a key finds the arguments of that name, and besides them only doubled braces before text
that reads like a placeholder.
-/

namespace PCode.ErrorType.Template

inductive Segment where
  | char (c : Char)
  | argument (name : List Char) (format : Option (List Char))
  deriving DecidableEq

/-- No brace and no colon, so that the name ends where a placeholder ends or a format begins. -/
def Bare (name : List Char) : Prop := ∀ c ∈ name, c ∉ ['\x7b', '\x7d', ':']

def suffix : Option (List Char) → List Char
  | none => ['\x7d']
  | some format => ':' :: format ++ ['\x7d']

/-- A format has no braces and, as it has no dollar either, refers to no other argument by name or position. -/
inductive Reads : List Char → List Segment → Prop
  | nil : Reads [] []
  | char {c : Char} {cs : List Char} {ps : List Segment} (plain : c ∉ ['\x7b', '\x7d']) (h : Reads cs ps) :
    Reads (c :: cs) (.char c :: ps)
  | opening {cs : List Char} {ps : List Segment} (h : Reads cs ps) : Reads ('\x7b' :: '\x7b' :: cs) (.char '\x7b' :: ps)
  | closing {cs : List Char} {ps : List Segment} (h : Reads cs ps) : Reads ('\x7d' :: '\x7d' :: cs) (.char '\x7d' :: ps)
  | argument {name cs : List Char} {format : Option (List Char)} {ps : List Segment} (ne : name ≠ []) (bare : Bare name)
      (simple : ∀ c ∈ format.getD [], c ∉ ['\x7b', '\x7d', '$']) (h : Reads cs ps) :
    Reads ('\x7b' :: (name ++ (suffix format ++ cs))) (.argument name format :: ps)

def names (ps : List Segment) : List (List Char) :=
  ps.filterMap fun
    | .char _ => none
    | .argument name _ => some name

def chars (ps : List Segment) : List Char :=
  ps.filterMap fun
    | .char c => some c
    | .argument _ _ => none

/-- The segments begin with the text of a head. -/
def Leads (heads : List (List Char)) (ps : List Segment) : Prop := ∃ head ∈ heads, head.map Segment.char <+: ps

/-- Some text among the segments is a brace and one of the heads. -/
def Shows (heads : List (List Char)) (ps : List Segment) : Prop :=
  ∃ head ∈ heads, .char '\x7b' :: head.map Segment.char <:+: ps

instance (heads : List (List Char)) (ps : List Segment) : Decidable (Leads heads ps) :=
  inferInstanceAs (Decidable (∃ head ∈ heads, head.map Segment.char <+: ps))

instance (heads : List (List Char)) (ps : List Segment) : Decidable (Shows heads ps) :=
  inferInstanceAs (Decidable (∃ head ∈ heads, .char '\x7b' :: head.map Segment.char <:+: ps))

/-- A head as the search has them, a name and what ends a name. -/
def Ended (head : List Char) : Prop := ∃ key stop, Bare key ∧ stop ∈ ['\x7d', ':'] ∧ head = key ++ [stop]

variable {heads : List (List Char)} {head key name cs : List Char} {ps qs : List Segment} {p : Segment}

theorem names_cons (p : Segment) (ps : List Segment) : names (p :: ps) = names [p] ++ names ps := by
  rw [names, names, names, ← List.filterMap_append, List.singleton_append]

theorem exists_mem_and_left {a : Prop} {q : List Char → Prop} :
    (∃ head, head ∈ heads ∧ a ∧ q head) ↔ a ∧ ∃ head, head ∈ heads ∧ q head := by
  simp only [and_left_comm, exists_and_left]

theorem shows_cons_iff : Shows heads (p :: ps) ↔ p = .char '\x7b' ∧ Leads heads ps ∨ Shows heads ps := by
  simp only [Shows, Leads, List.infix_cons_iff, List.cons_prefix_cons, and_or_left, exists_or, exists_mem_and_left, eq_comm]

theorem mem_ends_iff : head ∈ ends key ↔ ∃ stop ∈ ['\x7d', ':'], head = key ++ [stop] := by
  simp [ends]

theorem ended_of_mem_ends (bare : Bare key) (h : head ∈ ends key) : Ended head := by
  obtain ⟨stop, hs, rfl⟩ := mem_ends_iff.mp h
  exact ⟨key, stop, bare, hs, rfl⟩

theorem Ended.unopened (h : Ended head) : '\x7b' ∉ head := by
  obtain ⟨key, stop, bare, hs, rfl⟩ := h
  intro mem
  obtain mem | mem := List.mem_append.mp mem
  · exact bare _ mem (by decide)
  · rw [← List.mem_singleton.mp mem] at hs
    exact absurd hs (by decide)

theorem Ended.ne_nil (h : Ended head) : head ≠ [] := by
  obtain ⟨key, stop, -, -, rfl⟩ := h
  simp

theorem exists_suffix (format : Option (List Char)) (cs : List Char) :
    ∃ stop ∈ ['\x7d', ':'], ∃ rest, suffix format ++ cs = stop :: rest := by
  cases format <;> simp [suffix]

theorem brace_notMem_suffix {format : Option (List Char)} (simple : ∀ c ∈ format.getD [], c ∉ ['\x7b', '\x7d', '$']) :
    '\x7b' ∉ suffix format := by
  intro h
  cases format with
  | none => simp [suffix] at h
  | some format =>
    have mem : '\x7b' ∈ format := by simpa [suffix] using h
    exact simple _ mem (by decide)

/-- Text without braces is read as it stands, up to the end of a placeholder. -/
theorem prefix_iff_of_reads (h : Reads cs ps) (ended : Ended head) : head <+: cs ↔ head.map Segment.char <+: ps := by
  obtain ⟨key, stop, bare, hs, rfl⟩ := ended
  have shut : stop ≠ '\x7b' := by
    rintro rfl
    exact absurd hs (by decide)
  induction key generalizing cs ps with
  | nil => cases h <;> simp [List.cons_prefix_cons, shut]
  | cons d key ih =>
    obtain ⟨hd, bare⟩ := List.forall_mem_cons.mp bare
    simp only [List.mem_cons, List.not_mem_nil, or_false, not_or] at hd
    cases h with
    | nil => simp
    | char plain h => simpa [List.cons_prefix_cons] using fun _ => ih h bare
    | opening | closing | argument => simp [List.cons_prefix_cons, hd]

theorem follows_iff_leads (h : Reads cs ps) (ended : ∀ head ∈ heads, Ended head) : Follows heads cs ↔ Leads heads ps := by
  apply exists_congr
  intro head
  apply and_congr_right
  intro mem
  exact prefix_iff_of_reads h (ended head mem)

theorem not_follows_brace (ended : ∀ head ∈ heads, Ended head) (cs : List Char) : ¬Follows heads ('\x7b' :: cs) := by
  rintro ⟨head, mem, h⟩
  obtain ⟨c, rest, rfl⟩ := List.exists_cons_of_ne_nil (ended head mem).ne_nil
  have unopened := (ended _ mem).unopened
  rw [(List.cons_prefix_cons.mp h).1] at unopened
  exact unopened List.mem_cons_self

theorem not_stop_of_bare (bare : Bare name) : ∀ c ∈ name, ¬c ∈ ['\x7d', ':'] := by
  intro c hc h
  exact bare c hc (List.mem_cons_of_mem _ h)

theorem Bare.unopened (bare : Bare name) : '\x7b' ∉ name := by
  intro h
  exact bare _ h (by decide)

theorem follows_argument_iff (bare : Bare key) (hn : Bare name) (format : Option (List Char)) (cs : List Char) :
    Follows (ends key) (name ++ (suffix format ++ cs)) ↔ key = name := by
  obtain ⟨stop, hs, rest, h⟩ := exists_suffix format cs
  rw [h]
  simp only [Follows, mem_ends_iff]
  constructor
  · rintro ⟨_, ⟨stop', hs', rfl⟩, s, he⟩
    rw [← List.append_cons, Text.append_stop_inj (not_stop_of_bare bare) (not_stop_of_bare hn) hs' hs] at he
    exact he.1
  · rintro rfl
    exact ⟨_, ⟨stop, hs, rfl⟩, rest, by simp⟩

theorem infix_append_iff {part : List Char} (h : '\x7b' ∉ part) (cs : List Char) :
    '\x7b' :: head <:+: part ++ cs ↔ '\x7b' :: head <:+: cs := by
  induction part with
  | nil => rfl
  | cons c part ih =>
    simp only [List.mem_cons, not_or] at h
    rw [List.cons_append, List.infix_cons_iff, List.cons_prefix_cons, ih h.2]
    simp [h.1]

def Mentions (key cs : List Char) : Prop := ∃ head ∈ ends key, '\x7b' :: head <:+: cs

theorem mentions_iff {s : String} : mentions cs s ↔ Mentions s.toList cs := by
  simp [mentions, Mentions, ends, placeholder, formatted, Text.occurs_iff]

theorem mentions_cons_iff {c : Char} : Mentions key (c :: cs) ↔ c = '\x7b' ∧ Follows (ends key) cs ∨ Mentions key cs := by
  simp only [Mentions, Follows, List.infix_cons_iff, List.cons_prefix_cons, and_or_left, exists_or, exists_mem_and_left, eq_comm]

/-- The search finds what is called, and what is shown between doubled braces. -/
theorem mentions_iff_of_reads (h : Reads cs ps) (bare : Bare key) :
    Mentions key cs ↔ key ∈ names ps ∨ Shows (ends key) ps := by
  have ended : ∀ head ∈ ends key, Ended head := fun head => ended_of_mem_ends bare
  induction h with
  | nil => simp [Mentions, Shows, names]
  | char plain h ih =>
    simp only [List.mem_cons, not_or] at plain
    simp [mentions_cons_iff, shows_cons_iff, ih, names, plain]
  | opening h ih =>
    simp only [mentions_cons_iff, shows_cons_iff, ih, not_follows_brace ended, follows_iff_leads h ended]
    simp [names, or_left_comm]
  | closing h ih => simp [mentions_cons_iff, shows_cons_iff, ih, names]
  | @argument name cs format ps ne hn simple h ih =>
    -- Without a brace in between, the search goes on behind the placeholder.
    have skip : Mentions key (name ++ (suffix format ++ cs)) ↔ Mentions key cs := by
      simp only [Mentions, infix_append_iff hn.unopened, infix_append_iff (brace_notMem_suffix simple)]
    rw [mentions_cons_iff, follows_argument_iff bare hn, skip, shows_cons_iff]
    simp [names, ih, or_assoc]

theorem suffix_append_inj {f g : Option (List Char)} {cs ds : List Char} (hf : '\x7d' ∉ f.getD [])
    (hg : '\x7d' ∉ g.getD []) : suffix f ++ cs = suffix g ++ ds ↔ f = g ∧ cs = ds := by
  have unclosed {format : List Char} (h : '\x7d' ∉ format) : ∀ c ∈ format, ¬c = '\x7d' := by
    rintro c hc rfl
    exact h hc
  cases f with
  | none => cases g <;> simp [suffix]
  | some f =>
    cases g with
    | none => simp [suffix]
    | some g =>
      have text := Text.append_stop_inj (s := cs) (t := ds) (unclosed hf) (unclosed hg) rfl rfl
      simpa [suffix] using text

theorem argument_inj {a b cs ds : List Char} {f g : Option (List Char)} (ha : Bare a) (hb : Bare b)
    (hf : '\x7d' ∉ f.getD []) (hg : '\x7d' ∉ g.getD []) :
    a ++ (suffix f ++ cs) = b ++ (suffix g ++ ds) ↔ a = b ∧ f = g ∧ cs = ds := by
  rw [← suffix_append_inj hf hg]
  obtain ⟨x, hx, s, hs⟩ := exists_suffix f cs
  obtain ⟨y, hy, t, ht⟩ := exists_suffix g ds
  rw [hs, ht, Text.append_stop_inj (not_stop_of_bare ha) (not_stop_of_bare hb) hx hy, List.cons.injEq]

theorem Reads.unique (h : Reads cs ps) (h' : Reads cs qs) : ps = qs := by
  have apart {name cs ds : List Char} (ne : name ≠ []) (bare : Bare name) : name ++ cs ≠ '\x7b' :: ds := by
    obtain ⟨c, rest, rfl⟩ := List.exists_cons_of_ne_nil ne
    intro h
    exact bare c List.mem_cons_self (by simp [(List.cons.inj h).1])
  -- The text of a reading is generalised before a second one is taken apart: it need not begin with a constructor.
  induction h generalizing qs with
  | nil => cases h' with
    | nil => rfl
  | char plain h ih =>
    cases h' with
    | char _ h' => rw [ih h']
    | opening | closing | argument => simp at plain
  | opening h ih =>
    generalize ht : '\x7b' :: '\x7b' :: _ = text at h'
    cases h' with
    | nil => cases ht
    | char plain => simp [(List.cons.inj ht).1.symm] at plain
    | opening h' =>
      cases ht
      rw [ih h']
    | closing => simp at ht
    | argument ne bare => exact absurd (List.cons.inj ht).2.symm (apart ne bare)
  | closing h ih =>
    cases h' with
    | char plain => simp at plain
    | closing h' => rw [ih h']
  | argument ne bare simple h ih =>
    generalize ht : '\x7b' :: _ = text at h'
    cases h' with
    | nil => cases ht
    | char plain => simp [(List.cons.inj ht).1.symm] at plain
    | opening => exact absurd (List.cons.inj ht).2 (apart ne bare)
    | closing => simp at ht
    | argument ne' bare' simple' h' =>
      have closed {format : Option (List Char)} (simple : ∀ c ∈ format.getD [], c ∉ ['\x7b', '\x7d', '$']) :
          '\x7d' ∉ format.getD [] := fun h => simple _ h (by decide)
      obtain ⟨rfl, rfl, rfl⟩ := (argument_inj bare bare' (closed simple) (closed simple')).mp (List.cons.inj ht).2
      rw [ih h']

def Segment.mapName (g : List Char → List Char) : Segment → Segment
  | char c => char c
  | argument name format => argument (g name) format

/-- What marking does to the segments: it renames every argument, and it does not spare text that shows a head. -/
def markedSegments (heads : List (List Char)) : List Segment → List Segment
  | [] => []
  | .argument name format :: ps => .argument ('f' :: name) format :: markedSegments heads ps
  | .char c :: ps =>
    if c = '\x7b' ∧ Leads heads ps then .char c :: .char 'f' :: markedSegments heads ps
    else .char c :: markedSegments heads ps

theorem Reads.marked (h : Reads cs ps) (ended : ∀ head ∈ heads, Ended head) (calls : ∀ name ∈ names ps, ends name ⊆ heads) :
    Reads (marked heads cs) (markedSegments heads ps) := by
  induction h with
  | nil => exact .nil
  | char plain h ih =>
    have ordinary := plain
    simp only [List.mem_cons, not_or] at ordinary
    rw [marked_cons_of_ne ordinary.1, markedSegments, if_neg fun shown => ordinary.1 shown.1]
    exact .char plain (ih calls)
  | @opening cs ps h ih =>
    have doubled : ¬('\x7b' = '\x7b' ∧ Follows heads ('\x7b' :: cs)) := fun h => not_follows_brace ended cs h.2
    -- Only the second brace of the pair can be marked, and it is by the text behind it.
    rw [Template.marked, if_neg doubled, Template.marked, markedSegments]
    simp only [follows_iff_leads h ended]
    split_ifs
    · exact .opening (.char (by decide) (ih calls))
    · exact .opening (ih calls)
  | closing h ih =>
    rw [marked_cons_of_ne (by decide), marked_cons_of_ne (by decide), markedSegments, if_neg (by simp)]
    exact .closing (ih calls)
  | @argument name cs format ps ne hn simple h ih =>
    obtain ⟨sub, calls⟩ := List.forall_mem_cons.mp calls
    obtain ⟨head, mem, hp⟩ := (follows_argument_iff hn hn format cs).mpr rfl
    have renamed : Bare ('f' :: name) := List.forall_mem_cons.mpr ⟨by decide, hn⟩
    rw [Template.marked, if_pos ⟨rfl, head, sub mem, hp⟩, marked_append hn.unopened,
      marked_append (brace_notMem_suffix simple), markedSegments]
    exact @Reads.argument ('f' :: name) _ _ _ (List.cons_ne_nil _ _) renamed simple (ih calls)

theorem chars_length_le (heads : List (List Char)) (ps : List Segment) :
    (chars ps).length ≤ (chars (markedSegments heads ps)).length := by
  induction ps with
  | nil => exact le_rfl
  | cons p ps ih =>
    cases p with
    | char c =>
      have shorter : (chars ps).length + 1 ≤ (chars (markedSegments heads ps)).length + 1 := Nat.succ_le_succ ih
      unfold markedSegments
      split_ifs
      · exact shorter.trans (Nat.le_succ _)
      · exact shorter
    | argument name format => simpa [markedSegments, chars] using ih

theorem markedSegments_of_not_shows (h : ¬Shows heads ps) :
    markedSegments heads ps = ps.map (Segment.mapName fun name => 'f' :: name) := by
  induction ps with
  | nil => rfl
  | cons p ps ih =>
    rw [shows_cons_iff, not_or] at h
    cases p with
    | char c =>
      have unmarked : ¬(c = '\x7b' ∧ Leads heads ps) := by simpa using h.1
      rw [markedSegments, if_neg unmarked, ih h.2]
      rfl
    | argument name format =>
      rw [markedSegments, ih h.2]
      rfl

theorem chars_markedSegments_iff : chars (markedSegments heads ps) = chars ps ↔ ¬Shows heads ps := by
  induction ps with
  | nil => simp [markedSegments, Shows]
  | cons p ps ih =>
    cases p with
    | argument name format => simpa [markedSegments, chars, shows_cons_iff] using ih
    | char c =>
      by_cases shown : c = '\x7b' ∧ Leads heads ps
      · have longer : 'f' :: chars (markedSegments heads ps) ≠ chars ps := by
          intro h
          have length := congrArg List.length h
          rw [List.length_cons] at length
          have bound := chars_length_le heads ps
          omega
        rw [markedSegments, if_pos shown, shows_cons_iff, Segment.char.injEq]
        simpa [chars, shown] using longer
      · rw [markedSegments, if_neg shown, shows_cons_iff, Segment.char.injEq, or_iff_right shown, ← ih]
        simp [chars]

theorem names_map_mapName (g : List Char → List Char) (ps : List Segment) :
    names (ps.map (Segment.mapName g)) = (names ps).map g := by
  induction ps with
  | nil => rfl
  | cons p ps ih => cases p <;> simpa [names, Segment.mapName] using ih

theorem leads_map_mapName_iff (g : List Char → List Char) : Leads heads (ps.map (Segment.mapName g)) ↔ Leads heads ps := by
  have same (head : List Char) (ps : List Segment) :
      head.map Segment.char <+: ps.map (Segment.mapName g) ↔ head.map Segment.char <+: ps := by
    induction head generalizing ps with
    | nil => simp
    | cons c head ih =>
      cases ps with
      | nil => simp
      | cons p ps => cases p <;> simp [List.cons_prefix_cons, Segment.mapName, ih]
  simp [Leads, same]

theorem shows_map_mapName_iff (g : List Char → List Char) : Shows heads (ps.map (Segment.mapName g)) ↔ Shows heads ps := by
  induction ps with
  | nil => simp
  | cons p ps ih =>
    rw [List.map_cons, shows_cons_iff, shows_cons_iff, leads_map_mapName_iff, ih]
    cases p <;> simp [Segment.mapName]

end PCode.ErrorType.Template
