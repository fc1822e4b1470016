import PCode.Proofs.Session.Lifecycle
import PCode.Proofs.Session.Locality
/-!
Whole runs. A run is the steps it takes: it comes to an end when some number of them does, however many
were taken one by one before it.
-/

namespace PCode.Session

variable {σ : Type} [Channel σ] {s t u v : Session σ} {r r' : Except Fault Summary} {k : Nat}

/-- The run of `s` ends, whatever the number of steps. -/
def Returns (s : Session σ) (r : Except Fault Summary) (t : Session σ) : Prop := ∃ fuel, s.run fuel = some (r, t)

theorem after_eq_of_le {m n : Nat} (h : (s.after m).machine.outcome? = some r) (hmn : m ≤ n) :
    s.after n = s.after m := by
  obtain ⟨d, rfl⟩ := Nat.exists_eq_add_of_le hmn
  rw [after_add]
  exact after_of_not_live (Machine.not_live_of_outcome? h) d

theorem returns_iff : s.Returns r t ↔ ∃ n, s.announce.after n = t ∧ t.machine.outcome? = some r := by
  constructor
  · rintro ⟨fuel, h⟩
    cases fuel with
    | zero => cases h
    | succ n =>
      rw [run, finish_succ, Option.map_eq_some_iff] at h
      obtain ⟨r, hr, h⟩ := h
      cases h
      exact ⟨n + 1, rfl, hr⟩
  · rintro ⟨n, rfl, hr⟩
    refine ⟨n + 1, ?_⟩
    rw [run, finish_succ, after_eq_of_le hr (Nat.le_succ n), hr, Option.map_some]

/-- A run ends in one way only. -/
theorem Returns.unique (h : s.Returns r t) (h' : s.Returns r' u) : r = r' ∧ t = u := by
  obtain ⟨m, rfl, hm⟩ := returns_iff.mp h
  obtain ⟨n, rfl, hn⟩ := returns_iff.mp h'
  have same : s.announce.after m = s.announce.after n := by
    rcases Nat.le_total m n with hmn | hnm
    · exact (after_eq_of_le hm hmn).symm
    · exact after_eq_of_le hn hnm
  rw [same] at hm
  exact ⟨Option.some.inj (hm.symm.trans hn), same⟩

/-- Apart from the report that it starts, a run leaves what its steps leave. -/
theorem exists_returns_iff :
    (∃ t, s.Returns r t ∧ Same u t) ↔ ∃ n, Same u (s.after n) ∧ (s.after n).machine.outcome? = some r := by
  have same (n : Nat) : Same (s.after n) (s.announce.after n) := s.same_announce.after n
  constructor
  · rintro ⟨t, h, hu⟩
    obtain ⟨n, rfl, hr⟩ := returns_iff.mp h
    rw [(same n).machine] at hr
    exact ⟨n, hu.trans (same n).symm, hr⟩
  · rintro ⟨n, hu, hr⟩
    rw [← (same n).machine] at hr
    exact ⟨_, returns_iff.mpr ⟨n, rfl, hr⟩, hu.trans (same n)⟩

theorem Returns.exists_after (h : s.Returns r t) :
    ∃ n, Same (s.after n) t ∧ (s.after n).machine.outcome? = some r := by
  obtain ⟨n, hn, hr⟩ := exists_returns_iff.mp ⟨t, h, rfl, rfl⟩
  exact ⟨n, hn.symm, hr⟩

theorem Same.returns (h : Same s t) (hr : s.Returns r u) : ∃ v, t.Returns r v ∧ Same u v := by
  obtain ⟨n, hu, hn⟩ := hr.exists_after
  have ht := h.after n
  rw [← ht.machine] at hn
  exact exists_returns_iff.mpr ⟨n, hu.symm.trans ht, hn⟩

/-- Steps taken one by one before a run change nothing about it. -/
theorem exists_returns_after_iff (k : Nat) :
    (∃ u, (s.after k).Returns r u ∧ Same t u) ↔ ∃ u, s.Returns r u ∧ Same t u := by
  rw [exists_returns_iff, exists_returns_iff]
  constructor
  · rintro ⟨n, ht, hr⟩
    rw [← after_add] at ht hr
    exact ⟨k + n, ht, hr⟩
  · rintro ⟨n, ht, hr⟩
    rcases Nat.le_total k n with hkn | hnk
    · obtain ⟨d, rfl⟩ := Nat.exists_eq_add_of_le hkn
      rw [after_add] at ht hr
      exact ⟨d, ht, hr⟩
    · rw [← after_eq_of_le hr hnk] at ht hr
      exact ⟨0, ht, hr⟩

theorem outcome?_of_step_eq_error {fault : Fault} (h : s.step.1 = .error fault) :
    s.step.2.machine.outcome? = some (.error fault) := by
  obtain ⟨faulted, held⟩ := faulted_of_step_eq_error (Prod.ext h rfl)
  rw [Machine.outcome?, faulted, held]

theorem outcome?_of_step_eq_halted (h : s.step.1 = .ok .halted) :
    s.step.2.machine.outcome? = some (.ok s.step.2.machine.summary) := by
  rw [Machine.outcome?, state_of_step_eq_ok (Prod.ext h rfl)]

/-- A session whose run would be over answers a step with the same. -/
theorem step_of_outcome? (h : s.machine.outcome? = some r) :
    (s.step = (.ok .halted, s) ∧ r = .ok s.machine.summary) ∨
      ∃ fault, s.step = (.error fault, s) ∧ r = .error fault := by
  unfold Machine.outcome? at h
  split at h
  next hs => exact .inl ⟨step_of_halted hs, (Option.some.inj h).symm⟩
  next fault hs held => exact .inr ⟨fault, step_of_faulted hs held, (Option.some.inj h).symm⟩
  next => cases h

/-- What a run of `s` comes to, told by steps alone; `log` are the executions before it. -/
structure Iterated (log : List Execution) (s : Session σ) : Prop where
  unique : ∀ r r' t u, s.Returns r t → s.Returns r' u → r = r' ∧ t = u
  resumes : ∀ k r t, (∃ u, (s.after k).Returns r u ∧ Same t u) ↔ ∃ u, s.Returns r u ∧ Same t u
  raises : ∀ k, ∀ j < k, ∀ fault, (s.after j).step.1 = .error fault →
    ∃ u, s.Returns (.error fault) u ∧ Same (s.after k) u
  ends : (∃ r u, s.Returns r u) ↔
    ∃ n, (s.after n).step.1 = .ok .halted ∨ ∃ fault, (s.after n).step.1 = .error fault
  summary : ∀ summary u, s.Returns (.ok summary) u → ∃ n reason,
    (s.after n).step.1 = .ok .halted ∧ Same (s.after (n + 1)) u ∧ u.machine.haltReason = some reason ∧
      summary = ⟨reason, u.machine.registers, u.machine.stack, u.machine.steps⟩ ∧
        ∃ x, (log ++ s.executions (n + 1)).getLast? = some x ∧ x.Ends reason

theorem returns_of_step_eq_error {j : Nat} {fault : Fault} (h : (s.after j).step.1 = .error fault) (hjk : j < k) :
    ∃ u, s.Returns (.error fault) u ∧ Same (s.after k) u := by
  have raised := outcome?_of_step_eq_error h
  rw [← after_succ'] at raised
  rw [after_eq_of_le raised hjk]
  exact exists_returns_iff.mpr ⟨j + 1, ⟨rfl, rfl⟩, raised⟩

theorem returns_of_step_eq_halted {n : Nat} (h : (s.after n).step.1 = .ok .halted) :
    ∃ r u, s.Returns r u := by
  have halted := outcome?_of_step_eq_halted h
  rw [← after_succ'] at halted
  obtain ⟨u, hu, -⟩ := exists_returns_iff.mpr ⟨n + 1, ⟨rfl, rfl⟩, halted⟩
  exact ⟨_, u, hu⟩

theorem iterated_of_reached {program : Program} {settings : Settings} {log : List Execution}
    (reached : Machine.Reached (fun _ _ _ => True) program settings log s.machine) : s.Iterated log := by
  constructor
  case unique =>
    intro r r' t u h h'
    exact h.unique h'
  case resumes =>
    intro k r t
    exact exists_returns_after_iff k
  case raises =>
    intro k j hjk fault h
    exact returns_of_step_eq_error h hjk
  case ends =>
    constructor
    · rintro ⟨r, u, h⟩
      obtain ⟨n, -, hn⟩ := h.exists_after
      rcases step_of_outcome? hn with ⟨hs, -⟩ | ⟨fault, hs, -⟩
      · exact ⟨n, .inl (congrArg Prod.fst hs)⟩
      · exact ⟨n, .inr ⟨fault, congrArg Prod.fst hs⟩⟩
    · rintro ⟨n, h | ⟨fault, h⟩⟩
      · exact returns_of_step_eq_halted h
      · obtain ⟨u, hu, -⟩ := returns_of_step_eq_error h (Nat.lt_succ_self n)
        exact ⟨_, u, hu⟩
  case summary =>
    intro summary u h
    obtain ⟨n, same, hn⟩ := h.exists_after
    rcases step_of_outcome? hn with ⟨hs, hr⟩ | ⟨fault, -, hr⟩
    · have stays : s.after (n + 1) = s.after n := by rw [after_succ', hs]
      have same : Same (s.after (n + 1)) u := stays ▸ same
      have later := reached.after (n + 1) fun _ _ => trivial
      obtain ⟨reason, given⟩ : ∃ reason, (s.after (n + 1)).machine.haltReason = some reason := by
        rw [← Option.isSome_iff_exists, ← later.coherent.halted_iff, stays]
        exact state_of_step_eq_ok hs
      refine ⟨n, reason, congrArg Prod.fst hs, same, ?_, ?_, later.ends_of_halted given⟩
      · rw [same.machine, given]
      · rw [← stays] at hr
        rw [same.machine, Except.ok.inj hr, Machine.summary, given]
        rfl
    · cases hr

theorem iterated_halting :
    let program := Program.ofInstructions [.lit 4, .sio .write, .sio .halt]
    let s := (scripted (.ofProgram program) []).after 1
    let log : List Execution := [⟨(Machine.ofProgram program).core, .lit 4⟩]
    Machine.Reached (fun _ _ _ => True) program {} log s.machine ∧ (s.after 2).step.1 = .ok .halted ∧
      s.Iterated log := by
  intro program s log
  have built : Machine.Reached (fun _ _ _ => True) program {} [] (.ofProgram program) := .built .ofProgram
  have reached := built.after (s := scripted _ []) 1 fun _ _ => trivial
  exact ⟨reached, rfl, iterated_of_reached reached⟩

end PCode.Session
