import PCode.Proofs.Session.Journal
import PCode.Proofs.Session.Observation
import PCode.Proofs.Session.Record
/-!
The reports of calls that follow one another. Between one reset and the next they are those of one run, in
agreement with the trace and the counter of steps, and a machine that has ended reports nothing more.
-/

namespace PCode

namespace Machine

/-- Calls that report to one journal lead to `m` and `now`. Since the machine was made or reset, with the journal
at `past`, it has done the executions `log`, and a run has `begun` on it while it was ready. -/
inductive Journaled (program : Program) (settings : Settings) :
    Journal → Bool → List Execution → Machine → Journal → Prop
  | built {m j} (h : Built program settings m) : Journaled program settings j false [] m j
  | step {σ : Type} [Channel σ] {past begun log} {s : Session σ}
      (h : Journaled program settings past begun log s.machine s.journal) :
    Journaled program settings past begun (log ++ s.machine.execution?.toList) s.step.2.machine s.step.2.journal
  | run {σ : Type} [Channel σ] {past begun log} {s t : Session σ} {fuel r}
      (h : Journaled program settings past begun log s.machine s.journal) (hr : s.run fuel = some (r, t)) :
    Journaled program settings past (begun || s.machine.state = .ready) (log ++ s.executions fuel) t.machine
      t.journal
  | reset {past begun log m now} (h : Journaled program settings past begun log m now) :
    Journaled program settings now false [] m.reset now

variable {program : Program} {settings : Settings} {past now : Journal} {begun : Bool} {log : List Execution}
  {m : Machine}

theorem Journaled.reached (h : Journaled program settings past begun log m now) :
    Reached (fun _ _ _ => True) program settings log m := by
  induction h with
  | built h => exact .built h
  | step _ ih => exact .step ih trivial
  | @run σ _ _ _ _ s _ fuel _ _ hr ih =>
    rw [← s.same_announce.executions fuel]
    exact .run ih hr fun _ _ => trivial
  | reset _ ih => exact .reset ih

theorem Journaled.of_ready (h : Journaled program settings past begun log m now) (ready : m.state = .ready) :
    begun = false ∧ log = [] := by
  cases h with
  | built | reset => exact ⟨rfl, rfl⟩
  | step => exact absurd ready (Session.stepped _).state_ne_ready
  | run _ hr =>
    obtain ⟨n, -, ended⟩ := Session.returns_iff.mp ⟨_, hr⟩
    exact absurd (live_of_ready ready) (not_live_of_outcome? ended)

/-- What is told before the end. -/
def transcript (program : Program) (settings : Settings) (begun : Bool) (log : List Execution) : List Event :=
  (if begun then [.started program.length settings.stackSize] else []) ++ log.map Execution.event

theorem transcript_append (log' : List Execution) : transcript program settings begun (log ++ log') =
    transcript program settings begun log ++ log'.map Execution.event := by
  rw [transcript, List.map_append, ← List.append_assoc]
  rfl

theorem Reached.opening_eq {P : Guard} (h : Reached P program settings log m) :
    m.opening = .started program.length settings.stackSize := by
  rw [opening, h.sized.program, h.capacity_eq]

theorem Journaled.noted (h : Journaled program settings past begun log m now) :
    past.Noted (transcript program settings begun log ++ m.conclusion) now := by
  induction h with
  | built h => exact h.eq_fresh ▸ Journal.noted_nil _
  | step _ ih =>
    rw [transcript_append]
    exact Session.noted_step ih
  | @run σ _ past begun log s t fuel r h hr ih =>
    obtain rfl := Session.finish_eq_after hr
    by_cases ready : s.machine.state = .ready
    · obtain ⟨rfl, rfl⟩ := h.of_ready ready
      have hrun := Session.noted_run ready s.journal fuel
      rw [h.reached.opening_eq, ← (s.same_announce.after fuel).machine] at hrun
      rw [conclusion_of_live (live_of_ready ready)] at ih
      rw [decide_eq_true ready]
      exact ih.append hrun
    · rw [Session.announce_of_ne_ready ready, decide_eq_false ready, Bool.or_false, transcript_append]
      exact Session.noted_after ih fuel
  | reset h _ => exact h.reached.sized.reset ▸ Journal.noted_nil _

theorem events_fresh (program : Program) (settings : Settings) :
    ∀ t ∈ (fresh program settings).trace, t.events = [] := by
  intro t ht
  cases on : settings.trace with
  | false => simp [trace_fresh, on] at ht
  | true =>
    simp only [trace_fresh, on, if_true, Option.mem_some_iff] at ht
    rw [← ht]
    rfl

theorem events_executed {i : Instruction} {core : Core} {error : Option Error} (next : m.next? = some i)
    (h : ∀ t ∈ m.trace, t.events = log.map Execution.event) :
    ∀ t ∈ (m.executed i core error).trace, t.events = (log ++ m.execution?.toList).map Execution.event := by
  intro t ht
  obtain ⟨before, hb, rfl⟩ := Option.map_eq_some_iff.mp ht
  rw [Trace.events_record, h before hb, execution?_of_next? next, List.map_append]
  rfl

theorem Reached.events_eq (h : Reached (fun _ _ _ => True) program settings log m) :
    ∀ t ∈ m.trace, t.events = log.map Execution.event := by
  induction h using Reached.induct with
  | built m h => exact h.eq_fresh ▸ events_fresh program settings
  | step σ s log _ _ ih =>
    have hs := Session.stepped s
    generalize s.step.1 = r, s.step.2 = t at hs
    cases hs with
    | halted halted =>
      rw [execution?_of_not_live (not_live_of_halted halted), Option.toList_none, List.append_nil]
      exact ih
    | faulted faulted held =>
      rw [execution?_of_not_live (not_live_of_faulted faulted held), Option.toList_none, List.append_nil]
      exact ih
    | unfetched _ fetch =>
      rw [execution?_of_fetch fetch, Option.toList_none, List.append_nil, (stalls_of_fetch fetch rfl).2]
      exact ih
    | proceeded next | stopped next | failed next => exact events_executed next ih
  | reset log m h => exact h.sized.reset ▸ events_fresh program settings

/-- The counter of steps and the trace tell of these executions. -/
structure Tells (m : Machine) (log : List Execution) : Prop where
  steps : m.steps = log.length
  rows : ∀ t ∈ m.trace, t.events = log.map Execution.event

theorem Reached.tells (h : Reached (fun _ _ _ => True) program settings log m) : m.Tells log := ⟨h.steps, h.events_eq⟩

theorem Reached.faulting (h : Reached (fun _ _ _ => True) program settings log m) {fault : Fault}
    (held : m.fault = some fault) (executed : fault.stage program = .execute) :
    ∃ x, log.getLast? = some x ∧ x.core.pc = fault.pc := by
  induction h using Reached.induct with
  | built m h =>
    rw [h.eq_fresh] at held
    cases held
  | step σ s log h _ ih =>
    have unheld {i : Instruction} (next : s.machine.next? = some i) : s.machine.fault = none :=
      (h.coherent.live_iff.mp (next?_eq_some_iff.mp next).1).1
    have hs := Session.stepped s
    generalize s.step.1 = r, s.step.2 = t at hs held
    cases hs with
    | halted halted =>
      rw [execution?_of_not_live (not_live_of_halted halted), Option.toList_none, List.append_nil]
      exact ih held
    | faulted faulted before =>
      rw [execution?_of_not_live (not_live_of_faulted faulted before), Option.toList_none, List.append_nil]
      exact ih held
    | proceeded next | stopped next => cases (unheld next).symm.trans held
    | unfetched _ fetch snapshot =>
      cases held
      rw [← h.sized.program] at executed
      exact absurd executed (stalls_of_fetch fetch snapshot).1.stage_ne
    | failed next _ snapshot =>
      rw [execution?_of_next? next, Option.toList_some, List.getLast?_concat]
      cases held
      exact ⟨_, rfl, congrArg Fault.pc snapshot.symm⟩
  | reset log m => cases held

theorem countP_debug_transcript (log : List Execution) (m : Machine) :
    (transcript program settings begun log ++ m.conclusion).countP (fun e => e.level = .debug) = log.length := by
  rw [transcript, List.countP_append, List.countP_append, countP_debug_executions, countP_debug_conclusion]
  cases begun
  · exact Nat.zero_add _
  · exact Nat.zero_add _

end Machine

namespace Session

variable {σ : Type} [Channel σ] {s t : Session σ}

/-- Reports of the session at and above a level go to an empty journal. -/
def listening (level : Log.Level) (s : Session σ) : Session σ := { s with journal := ⟨level, #[]⟩ }

/-- A run of `s`, a ready machine, tells that it starts, then of each execution, and in the end what it comes to.
Any journal gets the same reports. -/
structure Narrated (s : Session σ) : Prop where
  underway : ∀ n, (s.announce.after n).machine.Live →
    s.journal.Reported (s.machine.opening :: (s.executions n).map Execution.event) (s.announce.after n).journal
  ended : ∀ r u, s.Returns r u → ∃ n, u = s.announce.after n ∧
    s.journal.Reported (s.machine.opening :: (s.executions n).map Execution.event ++ [.ofOutcome r]) u.journal
  told : ∀ n, (s.announce.after n).machine.Tells (s.executions n)
  quieter : ∀ level n, ((s.listening level).announce.after n).journal.events.toList =
    ((s.listening .debug).announce.after n).journal.events.toList.filter fun e => level ≤ e.level

theorem events_listening (ready : s.machine.state = .ready) (level : Log.Level) (n : Nat) :
    ((s.listening level).announce.after n).journal.events.toList =
      (s.machine.opening :: (s.executions n).map Execution.event ++ (s.after n).machine.conclusion).filter
        fun e => level ≤ e.level :=
  (noted_run ready ⟨level, #[]⟩ n).events

theorem narrated_of_ready {program : Program} {settings : Settings}
    (reached : Machine.Reached (fun _ _ _ => True) program settings [] s.machine) (ready : s.machine.state = .ready) :
    s.Narrated := by
  have same (n : Nat) : (s.announce.after n).machine = (s.after n).machine := (s.same_announce.after n).machine
  constructor
  case underway =>
    intro n live
    have h := noted_run ready s.journal n
    rw [← same, Machine.conclusion_of_live live, List.append_nil] at h
    exact h.reported
  case ended =>
    intro r u h
    obtain ⟨n, rfl, hr⟩ := returns_iff.mp h
    have h := noted_run ready s.journal n
    rw [← same, Machine.conclusion_of_outcome? hr] at h
    exact ⟨n, rfl, h.reported⟩
  case told =>
    intro n
    rw [same]
    exact (reached.after n fun _ _ => trivial).tells
  case quieter =>
    intro level n
    have all (es : List Event) : es.filter (fun e => Log.Level.debug ≤ e.level) = es :=
      List.filter_eq_self.mpr fun e _ => decide_eq_true (Journal.debug_le e.level)
    rw [events_listening ready, events_listening ready, all]

end Session

namespace Machine

variable {program : Program} {settings : Settings} {past now : Journal} {begun : Bool} {log : List Execution}
  {m : Machine}

/-- What the journal tells of the machine, and will tell. -/
structure Documented (program : Program) (settings : Settings) (past : Journal) (begun : Bool)
    (log : List Execution) (m : Machine) (now : Journal) : Prop where
  reported : past.Reported (transcript program settings begun log ++ m.conclusion) now
  full : past.threshold = .debug →
    now.events.toList = past.events.toList ++ (transcript program settings begun log ++ m.conclusion)
  told : m.Tells log
  traced : m.trace.isSome = settings.trace
  debug : (transcript program settings begun log ++ m.conclusion).countP (fun e => e.level = .debug) = m.steps
  faulting : ∀ fault, m.fault = some fault → fault.stage program = .execute →
    ∃ x, log.getLast? = some x ∧ x.core.pc = fault.pc
  narrated : m.state = .ready → ∀ (σ : Type) [Channel σ] (s : Session σ), s.machine = m → s.Narrated
  silent : ¬m.Live → ∀ (σ : Type) [Channel σ] (s : Session σ), s.machine = m →
    (∀ n, (s.after n).journal = s.journal) ∧ ∀ r t, s.Returns r t → t.journal = s.journal
  stepping : ∀ (σ : Type) [Channel σ] (s : Session σ), s.machine = m → ∀ n, ∃ es,
    s.journal.Reported es (s.after n).journal ∧ ∀ length capacity, .started length capacity ∉ es

end Machine

end PCode
