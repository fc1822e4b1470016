import PCode.Proofs.Execution.Kinds
/-!
Walks along the static links. A frame some levels out can be found exactly when that many static links
lead to it, none of them from the global frame.
-/

namespace PCode.Frame

inductive Outward (s : Stack) : Nat → Nat → Nat → Prop
  | here {base} : Outward s base 0 base
  | out {base next level f} (inner : base ≠ globalBase) (static : link s base staticLink = .ok next)
      (h : Outward s next level f) : Outward s base (level + 1) f

variable {s t : Stack} {exhausted e : Error} {base level m n f g : Nat}

theorem climb_eq_ok_iff : climb s exhausted level base = .ok f ↔ Outward s base level f := by
  constructor
  · intro h
    induction level generalizing base with
    | zero =>
      obtain rfl := Except.ok.inj h
      exact .here
    | succ level ih =>
      simp only [climb] at h
      split at h
      · cases h
      · next inner =>
        cases hl : link s base staticLink with
        | error e => simp [hl, bind, Except.bind] at h
        | ok next =>
          rw [hl] at h
          exact .out inner hl (ih h)
  · intro h
    induction h with
    | here => rfl
    | out inner static _ ih =>
      simp only [climb, if_neg inner, static]
      exact ih

theorem resolve_eq_ok_iff : resolve s base level = .ok f ↔ Outward s base level f := climb_eq_ok_iff

theorem Outward.unique (h : Outward s base n f) (h' : Outward s base n g) : f = g :=
  Except.ok.inj ((resolve_eq_ok_iff.mpr h).symm.trans (resolve_eq_ok_iff.mpr h'))

theorem outward_add_iff : Outward s base (m + n) f ↔ ∃ g, Outward s base m g ∧ Outward s g n f := by
  constructor
  · intro h
    induction m generalizing base with
    | zero =>
      rw [Nat.zero_add] at h
      exact ⟨base, .here, h⟩
    | succ m ih =>
      rw [Nat.add_right_comm] at h
      cases h with
      | out inner static h =>
        obtain ⟨g, hm, hn⟩ := ih h
        exact ⟨g, .out inner static hm, hn⟩
  · rintro ⟨g, hm, hn⟩
    induction hm with
    | here => rwa [Nat.zero_add]
    | out inner static _ ih =>
      rw [Nat.add_right_comm]
      exact .out inner static (ih hn)

theorem outward_zero_iff : Outward s base 0 f ↔ base = f := by
  constructor
  · rintro ⟨⟩
    rfl
  · rintro rfl
    exact .here

theorem outward_succ_iff {next : Nat} (inner : base ≠ globalBase) (static : link s base staticLink = .ok next) :
    Outward s base (n + 1) f ↔ Outward s next n f := by
  constructor
  · intro h
    cases h with
    | out _ static' h =>
      obtain rfl := Except.ok.inj (static.symm.trans static')
      exact h
  · exact .out inner static

theorem climb_eq_exhausted_iff {l b : Nat} :
    climb s exhausted level base = .error (.staticChainExhausted l b) ↔
      exhausted = .staticChainExhausted l b ∧ ∃ n < level, Outward s base n globalBase := by
  induction level generalizing base with
  | zero => simp [climb]
  | succ level ih =>
    rw [climb]
    by_cases hb : base = globalBase
    · rw [if_pos hb, Except.error.injEq]
      have here : ∃ n < level + 1, Outward s base n globalBase := ⟨0, Nat.succ_pos level, hb ▸ .here⟩
      exact (and_iff_left here).symm
    · rw [if_neg hb]
      rcases hl : link s base staticLink with e | next
      · have hne : e ≠ .staticChainExhausted l b := by
          intro he
          rcases link_eq_error hl with ⟨-, h⟩ | ⟨w, -, -, h⟩
          · cases h.symm.trans he
          · cases h.symm.trans he
        have stuck : ¬∃ n < level + 1, Outward s base n globalBase := by
          rintro ⟨n, -, _ | ⟨-, static, -⟩⟩
          · exact hb rfl
          · cases hl.symm.trans static
        constructor
        · intro h
          exact absurd (Except.error.inj h) hne
        · intro h
          exact absurd h.2 stuck
      · have hs : (∃ n < level + 1, Outward s base n globalBase) ↔ ∃ n < level, Outward s next n globalBase := by
          rw [Nat.exists_lt_succ_left, outward_zero_iff]
          simp only [hb, false_or, outward_succ_iff hb hl]
        rw [hs, ← ih]
        rfl

theorem resolve_eq_exhausted_iff {l b : Nat} :
    resolve s base level = .error (.staticChainExhausted l b) ↔
      (level = l ∧ base = b) ∧ ∃ n < level, Outward s base n globalBase := by
  rw [resolve, climb_eq_exhausted_iff, Error.staticChainExhausted.injEq]

theorem Outward.lt (h : Outward s base level f) (hbase : base < Word.indexCount) : f < Word.indexCount := by
  induction h with
  | here => exact hbase
  | out _ static _ ih => exact ih (link_lt static)

theorem Outward.of_agrees (h : Outward s base level f) (ha : s.Agrees s.depth t) : Outward t base level f := by
  induction h with
  | here => exact .here
  | out inner static _ ih => exact .out inner (link_of_agrees ha static) ih

theorem Outward.of_pop {w : Word} (h : Outward t base level f) (hp : s.pop = .ok w t) : Outward s base level f :=
  h.of_agrees (Stack.agrees_pop hp).symm

/-- A write leaves a walk alone if it spares the static links that the walk goes along. -/
theorem Outward.of_write {a : Nat} {w : Word} (h : Outward s base level f) (hw : s.write a w = .ok () t)
    (spared : ∀ n < level, ∀ g, Outward s base n g → a ≠ g + staticLink) : Outward t base level f := by
  induction h with
  | here => exact .here
  | out inner static _ ih =>
    have here := spared 0 (Nat.succ_pos _) _ .here
    have static' := link_of_cell (by rw [Stack.cell_write hw, if_neg (Ne.symm here)]) static
    apply Outward.out inner static'
    apply ih
    intro n hn g hg
    exact spared (n + 1) (Nat.succ_lt_succ hn) g (.out inner static hg)

theorem Outward.exists_iff (h : Outward s base n globalBase) : (∃ f, Outward s base level f) ↔ level ≤ n := by
  generalize hg : globalBase = g at h
  induction h generalizing level with
  | here =>
    subst hg
    constructor
    · rintro ⟨f, h⟩
      cases h with
      | here => exact Nat.le_refl _
      | out inner => exact absurd rfl inner
    · intro h
      obtain rfl := Nat.le_zero.mp h
      exact ⟨_, .here⟩
  | out inner static _ ih =>
    cases level with
    | zero => exact iff_of_true ⟨_, .here⟩ (Nat.zero_le _)
    | succ level =>
      simp only [outward_succ_iff inner static]
      rw [Nat.succ_le_succ_iff, ih hg]

theorem Outward.resolve_of_le (h : Outward s base n globalBase) (hle : level ≤ n) :
    ∃ f, Outward s base level f ∧ resolve s base level = .ok f := by
  obtain ⟨f, hf⟩ := h.exists_iff.mpr hle
  exact ⟨f, hf, resolve_eq_ok_iff.mpr hf⟩

theorem Outward.resolve_of_lt (h : Outward s base n globalBase) (hlt : n < level) :
    resolve s base level = .error (.staticChainExhausted level base) :=
  resolve_eq_exhausted_iff.mpr ⟨⟨rfl, rfl⟩, n, hlt, h⟩

/-- The cell on top may be a link of the walk. Without it the walk is no longer. -/
theorem Outward.exists_resolve_of_pop {w : Word} (h : Outward s base n globalBase) (hlt : n < level)
    (hp : s.pop = .ok w t) : ∃ e, resolve t base level = .error e ∧ e.kind = .invalidAddress := by
  cases hr : resolve t base level with
  | error e => exact ⟨e, rfl, kind_of_resolve hr⟩
  | ok f =>
    have out := (resolve_eq_ok_iff.mp hr).of_pop hp
    have hle := h.exists_iff.mp ⟨f, out⟩
    omega

end PCode.Frame
