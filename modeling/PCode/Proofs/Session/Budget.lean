import PCode.Proofs.Session.History
/-!
Step limits. A limit changes nothing until it is reached, and then it stops the machine where it is, so
that every run under a limit ends.
-/

namespace PCode

variable {limit : Nat}

namespace Machine

variable {m m' : Machine} {stepLimit : Option Nat}

def withLimit (stepLimit : Option Nat) (m : Machine) : Machine :=
  { m with settings := { m.settings with stepLimit } }

theorem checkBudget_of_none (h : m.settings.stepLimit = none) : m.checkBudget = .ok () := by
  rw [checkBudget, h]

theorem checkBudget_eq_ok_iff (h : m.settings.stepLimit = some limit) :
    m.checkBudget = .ok () ↔ m.steps < limit := by
  simp [checkBudget, h]

theorem checkBudget_of_le (h : m.settings.stepLimit = some limit) (hs : limit ≤ m.steps) :
    m.checkBudget = .error (.stepLimitExceeded limit) := by
  simp only [checkBudget, h, if_pos hs]

theorem fetch_withLimit (hb : (m.withLimit stepLimit).checkBudget = m.checkBudget) :
    (m.withLimit stepLimit).fetch = (m.fetch.1, m.fetch.2.withLimit stepLimit) :=
  fetch_map (f := withLimit stepLimit) hb rfl rfl rfl

theorem next?_withLimit (hb : (m.withLimit stepLimit).checkBudget = m.checkBudget) :
    (m.withLimit stepLimit).next? = m.next? := by
  unfold next?
  rw [fetch_withLimit hb]
  rfl

end Machine

namespace Session

variable {σ : Type} [Channel σ] {s t : Session σ} {r : Except Fault Machine.State} {stepLimit : Option Nat}

def withLimit (stepLimit : Option Nat) (s : Session σ) : Session σ :=
  { s with machine := s.machine.withLimit stepLimit }

theorem Stepped.withLimit (h : Stepped s r t)
    (hb : (s.machine.withLimit stepLimit).checkBudget = s.machine.checkBudget) :
    Stepped (s.withLimit stepLimit) r (t.withLimit stepLimit) := by
  have hn := Machine.next?_withLimit hb
  cases h with
  | halted halted => exact .halted halted
  | faulted faulted held => exact .faulted faulted held
  | unfetched live fetch snapshot =>
    have hf := Machine.fetch_withLimit hb
    rw [fetch] at hf
    exact .unfetched (s := s.withLimit stepLimit) live hf snapshot
  | proceeded next performs => exact .proceeded (hn.trans next) performs
  | stopped next performs => exact .stopped (hn.trans next) performs
  | failed next performs snapshot => exact .failed (hn.trans next) performs snapshot

theorem Stepped.steps_le (h : Stepped s r t) : t.machine.steps ≤ s.machine.steps + 1 := by
  have hl : s.machine.execution?.toList.length ≤ 1 := by cases s.machine.execution? <;> simp
  have hs := h.steps
  omega

theorem Stepped.steps_of_live (h : Stepped s r t) (live : t.machine.Live) :
    s.machine.Live ∧ t.machine.steps = s.machine.steps + 1 := by
  cases h with
  | halted halted => exact absurd live (Machine.not_live_of_halted halted)
  | faulted faulted held => exact absurd live (Machine.not_live_of_faulted faulted held)
  | unfetched | failed => exact absurd live (Machine.not_live_of_faulted rfl rfl)
  | stopped => exact absurd live (Machine.not_live_of_halted rfl)
  | proceeded next => exact ⟨(Machine.next?_eq_some_iff.mp next).1, rfl⟩

theorem Stepped.steps_le_limit (h : Stepped s r t) (hl : s.machine.settings.stepLimit = some limit)
    (hs : s.machine.steps ≤ limit) : t.machine.steps ≤ limit := by
  rw [h.steps, Machine.execution?]
  cases hn : s.machine.next? with
  | none => exact hs
  | some i =>
    have hb := (Machine.fetch_eq_ok_iff.mp (Machine.next?_eq_some_iff.mp hn).2).1
    exact (Machine.checkBudget_eq_ok_iff hl).mp hb

theorem settings_after (n : Nat) (s : Session σ) : (s.after n).machine.settings = s.machine.settings := by
  induction n with
  | zero => rfl
  | succ n ih => rw [after_succ', (stepped _).settings, ih]

theorem steps_after_le (n : Nat) (s : Session σ) : (s.after n).machine.steps ≤ s.machine.steps + n := by
  induction n with
  | zero => exact Nat.le_refl _
  | succ n ih =>
    rw [after_succ']
    have := (stepped (s.after n)).steps_le
    omega

theorem steps_after_of_live {n : Nat} (live : (s.after n).machine.Live) :
    (s.after n).machine.steps = s.machine.steps + n := by
  induction n with
  | zero => rfl
  | succ n ih =>
    rw [after_succ'] at live ⊢
    obtain ⟨before, hs⟩ := (stepped (s.after n)).steps_of_live live
    rw [hs, ih before, Nat.add_assoc]

theorem steps_after_le_limit (hl : s.machine.settings.stepLimit = some limit) (hs : s.machine.steps ≤ limit)
    (n : Nat) : (s.after n).machine.steps ≤ limit := by
  induction n with
  | zero => exact hs
  | succ n ih =>
    rw [after_succ']
    exact (stepped _).steps_le_limit ((settings_after n s).symm ▸ hl) ih

theorem run_of_limit (hl : s.machine.settings.stepLimit = some limit) (hs : s.machine.steps ≤ limit) :
    ∃ r t, s.run (limit + 1) = some (r, t) ∧ t.machine.steps ≤ limit := by
  rw [← machine_announce s] at hl hs
  have hle := steps_after_le_limit hl hs (limit + 1)
  have ended : ¬(s.announce.after (limit + 1)).machine.Live := by
    intro live
    have := steps_after_of_live live
    omega
  obtain ⟨r, hr⟩ := Option.ne_none_iff_exists'.mp (mt Machine.outcome?_eq_none_iff.mp ended)
  refine ⟨r, _, ?_, hle⟩
  rw [run, finish_succ, hr, Option.map_some]

/-- `limited` does what `unlimited` does until its limit is reached, and then stops. -/
structure Budgeted (limit : Nat) (limited unlimited : Session σ) : Prop where
  transparent : ∀ n ≤ limit, limited.after n = (unlimited.after n).withLimit (some limit) ∧
    ∀ k < n, (limited.after k).step.1 = (unlimited.after k).step.1
  exhausted : (unlimited.after limit).machine.Live →
    let s := limited.after limit
    let fault : Fault := ⟨.stepLimitExceeded limit, s.machine.core.pc, s.machine.registers⟩
    s.step = (.error fault, { s with
      machine := { s.machine with state := .faulted, fault := some fault }
      journal := s.journal.note (.faulted fault) })
  ends : ∀ n, ∃ r t, (limited.after n).run (limit + 1) = some (r, t) ∧ t.machine.steps ≤ limit

theorem step_withLimit (hl : s.machine.settings.stepLimit = none) (hs : s.machine.steps < limit) :
    (s.withLimit (some limit)).step = (s.step.1, s.step.2.withLimit (some limit)) := by
  have hb : (s.machine.withLimit (some limit)).checkBudget = s.machine.checkBudget := by
    rw [Machine.checkBudget_of_none hl]
    exact (Machine.checkBudget_eq_ok_iff rfl).mpr hs
  exact ((stepped s).withLimit hb).step_eq

theorem after_withLimit (hl : s.machine.settings.stepLimit = none) {n : Nat}
    (hn : s.machine.steps + n ≤ limit) :
    (s.withLimit (some limit)).after n = (s.after n).withLimit (some limit) := by
  refine (after_map ?_).1
  intro k hk
  have hs := steps_after_le k s
  exact step_withLimit ((settings_after k s).symm ▸ hl) (by omega)

theorem step_of_exhausted (live : s.machine.Live) (hl : s.machine.settings.stepLimit = some limit)
    (hs : limit ≤ s.machine.steps) {fault : Fault}
    (snapshot : fault = ⟨.stepLimitExceeded limit, s.machine.core.pc, s.machine.registers⟩) :
    s.step = (.error fault, { s with
      machine := { s.machine with state := .faulted, fault := some fault }
      journal := s.journal.note (.faulted fault) }) := by
  have fetch := Machine.fetch_of_checkBudget_eq_error (Machine.checkBudget_of_le hl hs)
  exact (Stepped.unfetched live fetch snapshot).step_eq

theorem budgeted_fresh (program : Program) (settings : Settings) (limit : Nat) (channel : σ) (journal : Journal) :
    Budgeted limit ⟨.fresh program { settings with stepLimit := some limit }, channel, journal⟩
      ⟨.fresh program { settings with stepLimit := none }, channel, journal⟩ := by
  let unlimited : Session σ := ⟨.fresh program { settings with stepLimit := none }, channel, journal⟩
  change Budgeted limit (unlimited.withLimit (some limit)) unlimited
  have start : unlimited.machine.steps = 0 := rfl
  have same {n : Nat} (hn : n ≤ limit) :
      (unlimited.withLimit (some limit)).after n = (unlimited.after n).withLimit (some limit) :=
    after_withLimit rfl (by omega)
  constructor
  case transparent =>
    intro n hn
    refine ⟨same hn, ?_⟩
    intro k hk
    have hs := steps_after_le k unlimited
    rw [same (by omega), step_withLimit ((settings_after k unlimited).symm ▸ rfl) (by omega)]
  case exhausted =>
    intro live s fault
    have hs : s = (unlimited.after limit).withLimit (some limit) := same (Nat.le_refl limit)
    apply step_of_exhausted _ _ _ rfl
    · rw [hs]
      exact live
    · rw [hs]
      rfl
    · rw [hs]
      exact Nat.le_of_eq ((steps_after_of_live live).trans (Nat.zero_add limit)).symm
  case ends =>
    intro n
    apply run_of_limit
    · rw [settings_after]
      rfl
    · exact steps_after_le_limit rfl (Nat.zero_le limit) n

end Session
end PCode
