import PCode.Proofs.Log.Report
import PCode.Proofs.Session.Run
import Mathlib.Data.List.Forall2
/-!
What a machine reports. Of each execution it tells when the instruction is decoded, of its end when it comes to
it, and that it starts only in a run; the journal keeps of this what is at or above its threshold.
-/

namespace PCode

def Execution.event (x : Execution) : Event := .executing x.core.pc x.instruction

def Trace.Row.event (row : Trace.Row) : Event := .executing row.index row.instruction

def Trace.events (t : Trace) : List Event := t.rows.toList.map Row.event

theorem Trace.events_record (t : Trace) (index : Nat) (i : Instruction) (registers : Registers) (stack : Array Word)
    (fault : Option Error) :
    (t.record index i registers stack fault).events = t.events ++ [.executing index i] := by
  simp [events, record, Row.event]

def Event.ofOutcome : Except Fault Summary → Event
  | .ok summary => .halted summary.reason summary.steps summary.registers
  | .error fault => .faulted fault

namespace Journal

variable {j j' j'' : Journal} {es es' : List Event}

/-- `j'` is `j` after reports of these events. -/
structure Noted (j : Journal) (es : List Event) (j' : Journal) : Prop where
  threshold : j'.threshold = j.threshold
  events : j'.events.toList = j.events.toList ++ es.filter fun e => j.threshold ≤ e.level

theorem noted_nil (j : Journal) : j.Noted [] j := ⟨rfl, (List.append_nil _).symm⟩

theorem noted_note (j : Journal) (e : Event) : j.Noted [e] (j.note e) := by
  by_cases h : j.threshold ≤ e.level
  · rw [note, if_pos h]
    exact ⟨rfl, by simp [h]⟩
  · rw [note, if_neg h]
    exact ⟨rfl, by simp [h]⟩

theorem Noted.append (h : j.Noted es j') (h' : j'.Noted es' j'') : j.Noted (es ++ es') j'' where
  threshold := h'.threshold.trans h.threshold
  events := by rw [h'.events, h.threshold, h.events, List.filter_append, List.append_assoc]

theorem debug_le (level : Log.Level) : Log.Level.debug ≤ level := Nat.zero_le level.rank

theorem Noted.events_of_debug (h : j.Noted es j') (hj : j.threshold = .debug) :
    j'.events.toList = j.events.toList ++ es := by
  rw [h.events, hj, List.filter_eq_self.mpr fun e _ => decide_eq_true (debug_le e.level)]

/-- `j'` is `j` after reports of these events, of which each that is kept has added its line to the text. -/
structure Reported (j : Journal) (es : List Event) (j' : Journal) : Prop extends Noted j es j' where
  text : ∀ terminal style clock, ∃ lines,
    j'.text terminal style clock = j.text terminal style clock ++ String.join lines ∧
      List.Forall₂ (fun (x : Event × Nat) line => x.1.Reports terminal style (clock x.2) line)
        ((es.filter fun e => j.threshold ≤ e.level).zipIdx j.events.size) lines

theorem forall₂_reports (terminal : Log.Terminal) (style : Log.Style) (clock : Nat → Log.Instant) (n : Nat)
    (es : List Event) : List.Forall₂ (fun (x : Event × Nat) line => x.1.Reports terminal style (clock x.2) line)
      (es.zipIdx n)
      (es.mapIdx fun k e => Log.line terminal style (clock (n + k)) e.level Event.target e.message) := by
  induction es generalizing n with
  | nil => exact .nil
  | cons e es ih =>
    have rest := ih (n + 1)
    simp only [Nat.add_assoc, Nat.add_comm 1] at rest
    rw [List.zipIdx_cons, List.mapIdx_cons]
    exact .cons (e.reports_line terminal style (clock n)) rest

theorem Noted.reported (h : j.Noted es j') : j.Reported es j' where
  toNoted := h
  text terminal style clock := by
    refine ⟨_, ?_, forall₂_reports terminal style clock j.events.size _⟩
    rw [Journal.text, h.events, List.mapIdx_append, String.join_append, Array.length_toList]
    simp only [Nat.add_comm]
    rfl

end Journal

namespace Machine

variable {m : Machine} {r : Except Fault Summary}

def opening (m : Machine) : Event := .started m.program.length m.core.stack.capacity

def conclusion (m : Machine) : List Event := m.outcome?.toList.map .ofOutcome

theorem conclusion_of_live (h : m.Live) : m.conclusion = [] := by
  rw [conclusion, outcome?_eq_none_iff.mpr h]
  rfl

theorem conclusion_of_outcome? (h : m.outcome? = some r) : m.conclusion = [.ofOutcome r] := by
  rw [conclusion, h]
  rfl

theorem started_notMem (log : List Execution) (m : Machine) (length capacity : Nat) :
    .started length capacity ∉ log.map Execution.event ++ m.conclusion := by
  rw [List.mem_append, not_or]
  constructor
  · rw [List.mem_map]
    rintro ⟨x, -, hx⟩
    cases hx
  · rw [conclusion, List.mem_map]
    rintro ⟨summary | fault, -, hr⟩
    · cases hr
    · cases hr

theorem countP_debug_executions (log : List Execution) :
    (log.map Execution.event).countP (fun e => e.level = .debug) = log.length := by
  rw [List.countP_map]
  exact List.countP_eq_length.mpr fun x _ => rfl

theorem countP_debug_conclusion (m : Machine) : m.conclusion.countP (fun e => e.level = .debug) = 0 := by
  rw [conclusion, List.countP_map]
  apply List.countP_eq_zero.mpr
  rintro (summary | fault) _
  · nofun
  · nofun

end Machine

namespace Session

variable {σ : Type} [Channel σ] {s t u : Session σ} {past : Journal} {es : List Event}

theorem Stepped.noted {r : Except Fault Machine.State} (h : Stepped s r t) (live : s.machine.Live) :
    s.journal.Noted (s.machine.execution?.toList.map Execution.event ++ t.machine.conclusion) t.journal := by
  cases h with
  | halted halted => exact absurd live (Machine.not_live_of_halted halted)
  | faulted faulted held => exact absurd live (Machine.not_live_of_faulted faulted held)
  | unfetched _ fetch =>
    rw [Machine.execution?_of_fetch fetch]
    exact Journal.noted_note _ _
  | proceeded next =>
    rw [Machine.execution?_of_next? next]
    exact Journal.noted_note _ _
  | stopped next | failed next =>
    rw [Machine.execution?_of_next? next]
    exact (Journal.noted_note _ _).append (Journal.noted_note _ _)

/-- The report of its end is the last one, and is made once. -/
theorem noted_step (h : past.Noted (es ++ s.machine.conclusion) s.journal) :
    past.Noted (es ++ s.machine.execution?.toList.map Execution.event ++ s.step.2.machine.conclusion)
      s.step.2.journal := by
  by_cases live : s.machine.Live
  · rw [Machine.conclusion_of_live live, List.append_nil] at h
    rw [List.append_assoc]
    exact h.append ((stepped s).noted live)
  · rw [(stepped s).eq_of_not_live live, Machine.execution?_of_not_live live, Option.toList_none, List.map_nil,
      List.append_nil]
    exact h

theorem noted_after (h : past.Noted (es ++ s.machine.conclusion) s.journal) (n : Nat) :
    past.Noted (es ++ (s.executions n).map Execution.event ++ (s.after n).machine.conclusion)
      (s.after n).journal := by
  induction n with
  | zero => simpa [executions, after] using h
  | succ n ih =>
    have hs := noted_step ih
    rwa [← after_succ', List.append_assoc es, ← List.map_append, ← executions_succ'] at hs

omit [Channel σ] in
theorem noted_announce (ready : s.machine.state = .ready) :
    s.journal.Noted [s.machine.opening] s.announce.journal := by
  unfold announce
  rw [ready]
  exact Journal.noted_note _ _

theorem Same.executions (h : Same s t) (n : Nat) : t.executions n = s.executions n := by
  induction n with
  | zero => rfl
  | succ n ih => rw [executions_succ', executions_succ', ih, (h.after n).machine]

/-- Steps tell of executions and of the end, and never that the machine starts. -/
theorem exists_noted_after (s : Session σ) (n : Nat) : ∃ es, s.journal.Noted es (s.after n).journal ∧
    ∀ length capacity, .started length capacity ∉ es := by
  by_cases live : s.machine.Live
  · have start : s.journal.Noted ([] ++ s.machine.conclusion) s.journal := by
      rw [Machine.conclusion_of_live live]
      exact Journal.noted_nil _
    exact ⟨_, noted_after start n, Machine.started_notMem _ _⟩
  · rw [after_of_not_live live]
    exact ⟨[], Journal.noted_nil _, nofun⟩

theorem journal_of_not_live (h : ¬s.machine.Live) :
    (∀ n, (s.after n).journal = s.journal) ∧ ∀ r t, s.Returns r t → t.journal = s.journal := by
  constructor
  · intro n
    rw [after_of_not_live h]
  · intro r t hr
    obtain ⟨n, rfl, -⟩ := returns_iff.mp hr
    rw [announce_of_ne_ready fun ready => h (Machine.live_of_ready ready), after_of_not_live h]

/-- What a run reports does not depend on the journal that it reports to. -/
theorem noted_run (ready : s.machine.state = .ready) (j : Journal) (n : Nat) :
    j.Noted (s.machine.opening :: (s.executions n).map Execution.event ++ (s.after n).machine.conclusion)
      (({ s with journal := j } : Session σ).announce.after n).journal := by
  let t : Session σ := { s with journal := j }
  have same : Same s t.announce := Same.trans (t := t) ⟨rfl, rfl⟩ t.same_announce
  have idle : t.announce.machine.conclusion = [] := by
    rw [machine_announce]
    exact Machine.conclusion_of_live (Machine.live_of_ready ready)
  have started : j.Noted ([s.machine.opening] ++ t.announce.machine.conclusion) t.announce.journal := by
    rw [idle]
    exact noted_announce (s := t) ready
  rw [← same.executions, ← (same.after n).machine]
  exact noted_after started n

end Session

end PCode
