import PCode.Proofs.Execution.Capacity
import PCode.Proofs.Session.Bounds
import PCode.Proofs.Session.Locality
/-!
Stack sizes. A machine with a greater stack goes along with a smaller one until the smaller one
overflows; a run that halts never comes to that.
-/

namespace PCode

variable {capacity : Nat}

namespace Machine

def withCapacity (capacity : Nat) (m : Machine) : Machine :=
  { m with settings := { m.settings with stackSize := capacity }, core := m.core.withCapacity capacity }

theorem fetch_withCapacity (capacity : Nat) (m : Machine) :
    (m.withCapacity capacity).fetch = (m.fetch.1, m.fetch.2.withCapacity capacity) :=
  fetch_map (f := withCapacity capacity) rfl rfl rfl rfl

theorem next?_withCapacity (capacity : Nat) (m : Machine) : (m.withCapacity capacity).next? = m.next? := by
  unfold next?
  rw [fetch_withCapacity]
  rfl

theorem fresh_withCapacity (program : Program) (settings : Settings) (header : Frame.headerSize ≤ capacity) :
    (fresh program settings).withCapacity capacity = fresh program { settings with stackSize := capacity } := by
  have hc : max capacity Frame.headerSize = capacity := Nat.max_eq_left header
  simp only [fresh, reset, withCapacity, Core.withCapacity, Core.initial, Stack.withReserved, Stack.withCapacity, hc]
  rfl

end Machine

namespace Session

variable {σ : Type} [Channel σ] {s t u : Session σ} {r : Except Fault Machine.State} {summary : Summary} {n : Nat}

def withCapacity (capacity : Nat) (s : Session σ) : Session σ :=
  { s with machine := s.machine.withCapacity capacity }

theorem Stepped.withCapacity (h : Stepped s r t) (le : s.machine.core.stack.capacity ≤ capacity)
    (fits : ∀ fault, r = .error fault → fault.error.kind ≠ .stackOverflow) :
    Stepped (s.withCapacity capacity) r (t.withCapacity capacity) := by
  have hn := Machine.next?_withCapacity capacity s.machine
  cases h with
  | halted halted => exact .halted halted
  | faulted faulted held => exact .faulted faulted held
  | unfetched live fetch snapshot =>
    have hf := Machine.fetch_withCapacity capacity s.machine
    rw [fetch] at hf
    exact .unfetched (s := s.withCapacity capacity) live hf snapshot
  | proceeded next performs =>
    have wide := perform_withCapacity performs.perform le
    exact .proceeded (hn.trans next) (performs_of_perform wide)
  | stopped next performs =>
    have wide := perform_withCapacity performs.perform le
    exact .stopped (hn.trans next) (performs_of_perform wide)
  | failed next performs snapshot =>
    subst snapshot
    have wide := perform_withCapacity_of_error performs le (fits _ rfl)
    exact .failed (hn.trans next) wide rfl

/-- None of the next `n` steps overflows the stack. -/
def Fits (n : Nat) (s : Session σ) : Prop :=
  ∀ k < n, ∀ fault, (s.after k).step.1 = .error fault → fault.error.kind ≠ .stackOverflow

theorem after_withCapacity (le : ∀ k, (s.after k).machine.core.stack.capacity ≤ capacity) (fits : s.Fits n) :
    (s.withCapacity capacity).after n = (s.after n).withCapacity capacity ∧
      ∀ k < n, ((s.withCapacity capacity).after k).step.1 = (s.after k).step.1 := by
  apply after_map
  intro k hk
  exact ((stepped (s.after k)).withCapacity (le k) (fits k hk)).step_eq

theorem fits_of_run (h : s.run n = some (.ok summary, u)) : s.Fits n := by
  intro k hk fault hf
  obtain ⟨j, rfl⟩ := Nat.exists_eq_add_of_lt hk
  have hs : (s.after k).step = (.error fault, s.after (k + 1)) := by
    rw [after_succ']
    exact Prod.ext hf rfl
  obtain ⟨faulted, held⟩ := faulted_of_step_eq_error hs
  have stays : s.after (k + j + 1) = s.after (k + 1) := by
    rw [Nat.add_right_comm, after_add]
    exact after_of_not_live (Machine.not_live_of_faulted faulted held) j
  have halted := exists_run_iff.mp ⟨u, h⟩
  rw [stays, Machine.outcome?, faulted, held] at halted
  cases halted

theorem run_withCapacity (same : t.after n = (s.after n).withCapacity capacity)
    (h : s.run n = some (.ok summary, u)) :
    ∃ v, t.run n = some (.ok summary, v) ∧ Same (u.withCapacity capacity) v := by
  obtain ⟨n, rfl⟩ : ∃ k, n = k + 1 := by
    cases n with
    | zero => cases h
    | succ n => exact ⟨n, rfl⟩
  have halted : (t.after (n + 1)).machine.outcome? = some (.ok summary) := by
    rw [same]
    exact exists_run_iff.mp ⟨u, h⟩
  obtain ⟨v, hv⟩ := exists_run_iff.mpr halted
  have hu := same_of_run h
  have ht := same_of_run hv
  rw [same] at ht
  refine ⟨v, hv, ?_, ?_⟩
  · rw [ht.machine]
    exact congrArg (Machine.withCapacity capacity) hu.machine.symm
  · exact ht.channel.trans hu.channel.symm

/-- `t` does what `s` does until `s` overflows, and halts as `s` does. -/
structure Widened (capacity : Nat) (s t : Session σ) : Prop where
  steps : ∀ n, s.Fits n →
    t.after n = (s.after n).withCapacity capacity ∧ ∀ k < n, (t.after k).step.1 = (s.after k).step.1
  runs : ∀ n summary u, s.run n = some (.ok summary, u) →
    ∃ v, t.run n = some (.ok summary, v) ∧ Same (u.withCapacity capacity) v

theorem widened_fresh (program : Program) (settings : Settings) (header : Frame.headerSize ≤ settings.stackSize)
    (le : settings.stackSize ≤ capacity) (channel : σ) (journal : Journal) :
    Widened capacity ⟨.fresh program settings, channel, journal⟩
      ⟨.fresh program { settings with stackSize := capacity }, channel, journal⟩ := by
  let s : Session σ := ⟨.fresh program settings, channel, journal⟩
  have bounded (k : Nat) : (s.after k).machine.core.stack.capacity ≤ capacity := by
    have start : Machine.Reached (fun _ _ _ => True) program settings [] s.machine := .built (Machine.built_fresh header)
    rw [(start.after k fun _ _ => trivial).capacity_eq]
    exact le
  rw [← Machine.fresh_withCapacity program settings (Nat.le_trans header le)]
  change Widened capacity s (s.withCapacity capacity)
  constructor
  case steps =>
    intro n fits
    exact after_withCapacity bounded fits
  case runs =>
    intro n summary u h
    have same := (after_withCapacity bounded (fits_of_run h)).1
    exact run_withCapacity same h

theorem widened_calling :
    let program := Program.ofInstructions [.cal 0 1, .inc 1, .sio .halt]
    let s : Session QueueChannel := ⟨.fresh program { stackSize := 7 }, .ofInput [], ⟨.error, #[]⟩⟩
    let t : Session QueueChannel := ⟨.fresh program { stackSize := 9 }, .ofInput [], ⟨.error, #[]⟩⟩
    s.Fits 3 ∧ (∃ summary u, s.run 3 = some (.ok summary, u)) ∧ Widened 9 s t := by
  intro program s t
  have halts : ∃ summary u, s.run 3 = some (.ok summary, u) := ⟨_, _, rfl⟩
  have header : Frame.headerSize ≤ ({ stackSize := 7 } : Settings).stackSize := by decide
  have le : ({ stackSize := 7 } : Settings).stackSize ≤ 9 := by decide
  refine ⟨?_, halts, ?_⟩
  · obtain ⟨summary, u, h⟩ := halts
    exact fits_of_run h
  · exact widened_fresh program { stackSize := 7 } header le (QueueChannel.ofInput []) ⟨.error, #[]⟩

end Session
end PCode
