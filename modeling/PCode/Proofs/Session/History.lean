import PCode.Channel.Queue
import PCode.Proofs.Session.Step
import Mathlib.Logic.Function.Iterate
/-!
The machines that a sequence of calls leads to. Every call has a channel and a journal of its own,
and a run is the steps that it takes.
-/

namespace PCode

/-- An instruction and the core that it found, the counter not yet moved on. -/
structure Execution where
  core : Core
  instruction : Instruction

def Machine.execution? (m : Machine) : Option Execution := m.next?.map fun i => ⟨m.core, i⟩

theorem Machine.execution?_of_not_live {m : Machine} (h : ¬m.Live) : m.execution? = none := by
  rw [execution?, next?_eq_none_of_not_live h]
  rfl

theorem Machine.execution?_of_fetch {m m' : Machine} {e : Error} (h : m.fetch = (.error e, m')) :
    m.execution? = none := by
  rw [execution?, next?_eq_none_of_fetch h]
  rfl

theorem Machine.execution?_of_next? {m : Machine} {i : Instruction} (h : m.next? = some i) :
    m.execution? = some ⟨m.core, i⟩ := by
  rw [execution?, h]
  rfl

/-- What a run of a machine that has ended comes to. -/
def Machine.outcome? (m : Machine) : Option (Except Fault Summary) :=
  match m.state, m.fault with
  | .halted, _ => some (.ok m.summary)
  | .faulted, some fault => some (.error fault)
  | _, _ => none

theorem Machine.outcome?_eq_none_iff {m : Machine} : m.outcome? = none ↔ m.Live := by
  unfold outcome? Live
  cases m.state <;> cases m.fault <;> simp

theorem Machine.not_live_of_outcome? {m : Machine} {r : Except Fault Summary} (h : m.outcome? = some r) :
    ¬m.Live := by
  rw [← outcome?_eq_none_iff, h]
  nofun

namespace Session

/-- A session with all its input at hand, and a journal that keeps errors. -/
def scripted (m : Machine) (input : List Word) : Session QueueChannel := ⟨m, .ofInput input, ⟨.error, #[]⟩⟩

variable {σ : Type} [Channel σ] {s t : Session σ}

def after (n : Nat) (s : Session σ) : Session σ := (fun s => s.step.2)^[n] s

def executions : Nat → Session σ → List Execution
  | 0, _ => []
  | n + 1, s => s.machine.execution?.toList ++ executions n s.step.2

theorem after_succ (n : Nat) (s : Session σ) : s.after (n + 1) = s.step.2.after n :=
  Function.iterate_succ_apply _ n s

theorem after_succ' (n : Nat) (s : Session σ) : s.after (n + 1) = (s.after n).step.2 :=
  Function.iterate_succ_apply' _ n s

theorem after_add (k n : Nat) (s : Session σ) : s.after (k + n) = (s.after k).after n := by
  rw [Nat.add_comm]
  exact Function.iterate_add_apply _ n k s

theorem Stepped.steps {r : Except Fault Machine.State} (h : Stepped s r t) :
    t.machine.steps = s.machine.steps + s.machine.execution?.toList.length := by
  cases h with
  | halted halted =>
    rw [Machine.execution?_of_not_live (Machine.not_live_of_halted halted)]
    rfl
  | faulted faulted held =>
    rw [Machine.execution?_of_not_live (Machine.not_live_of_faulted faulted held)]
    rfl
  | unfetched _ fetch =>
    rw [Machine.execution?_of_fetch fetch]
    rcases Machine.fetch_eq_error_iff.mp fetch with ⟨-, rfl⟩ | ⟨-, -, rfl⟩ | ⟨-, -, rfl⟩ <;> rfl
  | proceeded next | stopped next | failed next =>
    rw [Machine.execution?_of_next? next]
    rfl

theorem executions_succ' (n : Nat) (s : Session σ) :
    s.executions (n + 1) = s.executions n ++ (s.after n).machine.execution?.toList := by
  induction n generalizing s with
  | zero => simp [executions, after]
  | succ n ih =>
    rw [executions, ih, executions, after_succ, List.append_assoc]

theorem after_of_step_eq_self (h : s.step.2 = s) (n : Nat) : s.after n = s :=
  Function.iterate_fixed h n

/-- If `f` changes a session in ways that its steps go along with, then so does its run. -/
theorem after_map {τ : Type} [Channel τ] {f : Session σ → Session τ} {n : Nat}
    (h : ∀ k < n, (f (s.after k)).step = ((s.after k).step.1, f (s.after k).step.2)) :
    (f s).after n = f (s.after n) ∧ ∀ k < n, ((f s).after k).step.1 = (s.after k).step.1 := by
  induction n with
  | zero => exact ⟨rfl, nofun⟩
  | succ n ih =>
    obtain ⟨same, results⟩ := ih fun k hk => h k (Nat.lt_succ_of_lt hk)
    have hs := h n (Nat.lt_succ_self n)
    rw [← same] at hs
    constructor
    · rw [after_succ', hs, after_succ']
    · intro k hk
      by_cases hn : k = n
      · rw [hn, hs]
      · exact results k (by omega)

theorem Stepped.eq_of_not_live {r : Except Fault Machine.State} (h : Stepped s r t) (hs : ¬s.machine.Live) : t = s := by
  cases h with
  | halted | faulted => rfl
  | unfetched live => exact absurd live hs
  | proceeded next | stopped next | failed next => exact absurd (Machine.next?_eq_some_iff.mp next).1 hs

theorem after_of_not_live (h : ¬s.machine.Live) (n : Nat) : s.after n = s :=
  after_of_step_eq_self ((stepped s).eq_of_not_live h) n

omit [Channel σ] in
theorem machine_announce (s : Session σ) : s.announce.machine = s.machine := by
  unfold announce
  split <;> rfl

theorem finish_step (n : Nat) (s : Session σ) :
    finish (n + 1) s = (s.step.2.machine.outcome?.map fun r => (r, s.step.2)).or (finish n s.step.2) := by
  rcases hs : s.step with ⟨r, t⟩
  rw [finish, hs]
  cases stepped_of_step hs with
  | halted halted => simp only [Machine.outcome?, halted, Option.map_some, Option.some_or]
  | faulted faulted held => simp only [Machine.outcome?, faulted, held, Option.map_some, Option.some_or]
  | unfetched | proceeded | stopped | failed => rfl

/-- A run comes to what its steps lead to, once they end. -/
theorem finish_succ (n : Nat) (s : Session σ) :
    finish (n + 1) s = (s.after (n + 1)).machine.outcome?.map fun r => (r, s.after (n + 1)) := by
  induction n generalizing s with
  | zero =>
    rw [finish_step]
    exact Option.or_none
  | succ n ih =>
    rw [finish_step, ih, after_succ (n + 1)]
    cases ho : s.step.2.machine.outcome? with
    | none => rw [Option.map_none, Option.none_or]
    | some r => rw [after_of_not_live (Machine.not_live_of_outcome? ho), ho, Option.map_some, Option.some_or]

theorem finish_eq_after {fuel : Nat} {r : Except Fault Summary} (h : finish fuel s = some (r, t)) :
    t = s.after fuel := by
  cases fuel with
  | zero => cases h
  | succ fuel =>
    rw [finish_succ, Option.map_eq_some_iff] at h
    obtain ⟨_, -, h⟩ := h
    exact (Prod.mk.inj h).2.symm

end Session

namespace Machine

inductive Built (program : Program) : Settings → Machine → Prop
  | ofProgram : Built program {} (ofProgram program)
  | ofSettings {settings m} (h : ofSettings program settings = .ok m) : Built program settings m

theorem ofSettings_eq (program : Program) (settings : Settings) :
    ofSettings program settings = do
      settings.validate
      return fresh program settings := rfl

theorem Built.eq_fresh {program : Program} {settings : Settings} {m : Machine}
    (h : Built program settings m) : m = fresh program settings := by
  cases h with
  | ofProgram => rfl
  | ofSettings h =>
    rw [ofSettings_eq] at h
    cases hv : settings.validate with
    | error e => simp [hv, bind, Except.bind] at h
    | ok u =>
      simp only [hv, bind, Except.bind, pure, Except.pure, Except.ok.injEq] at h
      exact h.symm

theorem Built.header_le {program : Program} {settings : Settings} {m : Machine}
    (h : Built program settings m) : Frame.headerSize ≤ settings.stackSize := by
  cases h with
  | ofProgram => decide
  | ofSettings h =>
    apply Nat.le_of_not_lt
    intro hlt
    rw [ofSettings_eq] at h
    simp [Settings.validate, hlt, bind, Except.bind] at h

theorem built_fresh {program : Program} {settings : Settings} (header : Frame.headerSize ≤ settings.stackSize) :
    Built program settings (fresh program settings) := by
  apply Built.ofSettings
  rw [ofSettings_eq]
  simp [Settings.validate, Nat.not_lt.mpr header, bind, Except.bind, pure, Except.pure]

/-- What is asked of the sessions that a step is called on, of their channels among other things. -/
abbrev Guard := (σ : Type) → [Channel σ] → Session σ → Prop

/-- Some sequence of calls leads from a new machine to `m`; a step is only called on sessions that
satisfy `P`, and `log` are the executions since the last reset. -/
inductive Reached (P : Guard) (program : Program) (settings : Settings) :
    List Execution → Machine → Prop
  | built {m} (h : Built program settings m) : Reached P program settings [] m
  | step {σ : Type} [Channel σ] {log} {s : Session σ} (h : Reached P program settings log s.machine)
      (hp : P σ s) :
    Reached P program settings (log ++ s.machine.execution?.toList) s.step.2.machine
  | run {σ : Type} [Channel σ] {log} {s t : Session σ} {fuel r}
      (h : Reached P program settings log s.machine) (hr : s.run fuel = some (r, t))
      (hp : ∀ n < fuel, P σ (s.announce.after n)) :
    Reached P program settings (log ++ s.announce.executions fuel) t.machine
  | reset {log m} (h : Reached P program settings log m) : Reached P program settings [] m.reset

variable {P : Guard} {program : Program} {settings : Settings} {log : List Execution} {m : Machine}

theorem Reached.after {σ : Type} [Channel σ] {s : Session σ} (h : Reached P program settings log s.machine)
    (n : Nat) (hp : ∀ k < n, P σ (s.after k)) :
    Reached P program settings (log ++ s.executions n) (s.after n).machine := by
  induction n with
  | zero => simpa [Session.executions, Session.after] using h
  | succ n ih =>
    rw [Session.executions_succ', Session.after_succ', ← List.append_assoc]
    exact .step (ih fun k hk => hp k (Nat.lt_succ_of_lt hk)) (hp n (Nat.lt_succ_self n))

@[elab_as_elim]
theorem Reached.induct {motive : ∀ log m, Reached P program settings log m → Prop}
    (built : ∀ m (h : Built program settings m), motive [] m (.built h))
    (step : ∀ (σ : Type) [Channel σ] (s : Session σ) (log : List Execution)
      (h : Reached P program settings log s.machine) (hp : P σ s),
      motive log s.machine h → motive (log ++ s.machine.execution?.toList) s.step.2.machine (.step h hp))
    (reset : ∀ log m (h : Reached P program settings log m), motive log m h → motive [] m.reset (.reset h))
    (h : Reached P program settings log m) : motive log m h := by
  induction h with
  | built h => exact built _ h
  | @step σ _ log s h hp ih => exact step σ s log h hp ih
  | @run σ _ log s t fuel r h hr hp ih =>
    have h₀ : Reached P program settings log s.announce.machine := by rwa [s.machine_announce]
    have ih₀ : motive log s.announce.machine h₀ := by simpa only [s.machine_announce] using ih
    -- The run is taken apart into the steps of its fuel.
    have steps (n : Nat) (hn : n ≤ fuel) (hm : Reached P program settings
        (log ++ s.announce.executions n) (s.announce.after n).machine) : motive _ _ hm := by
      induction n with
      | zero => simpa [Session.executions, Session.after] using ih₀
      | succ n ihn =>
        have hk := h₀.after n fun k hk => hp k (Nat.lt_trans hk hn)
        have hs := step σ _ _ hk (hp n hn) (ihn (Nat.le_of_succ_le hn) hk)
        simpa only [Session.executions_succ', Session.after_succ', List.append_assoc] using hs
    obtain rfl := Session.finish_eq_after hr
    exact steps fuel (Nat.le_refl _) _
  | reset h ih => exact reset _ _ h ih

theorem Reached.steps (h : Reached P program settings log m) : m.steps = log.length := by
  induction h using Reached.induct with
  | built m h => rw [h.eq_fresh]; rfl
  | step σ s log _ _ ih =>
    rw [(Session.stepped s).steps, ih, List.length_append]
  | reset log m => rfl

/-- A step on some channel executes `i` without a fault. -/
def Executes (m : Machine) (i : Instruction) (m' : Machine) : Prop :=
  ∃ (σ : Type) (_ : Channel σ) (s t : Session σ) (state : State),
    s.machine = m ∧ t.machine = m' ∧ m.next? = some i ∧ s.step = (.ok state, t)

inductive Runs (m : Machine) : List Execution → Machine → Prop
  | none : Runs m [] m
  | step {log m' i m''} (h : Runs m log m') (he : m'.Executes i m'') : Runs m (log ++ [⟨m'.core, i⟩]) m''

variable {m' : Machine} {i : Instruction}

theorem executes_of_step {σ : Type} [Channel σ] {s : Session σ} {state : State}
    (hi : s.machine.next? = some i) (hs : s.step.1 = .ok state) : s.machine.Executes i s.step.2.machine :=
  ⟨σ, _, s, s.step.2, state, rfl, rfl, hi, Prod.ext hs rfl⟩

theorem Executes.performs (h : m.Executes i m') :
    ∃ (σ : Type) (_ : Channel σ) (channel channel' : σ) (halt : Option HaltReason),
      Session.Performs m.program i m.core.next channel halt m'.core channel' := by
  obtain ⟨σ, _, s, t, status, rfl, rfl, hi, hs⟩ := h
  obtain ⟨halt, performs⟩ := (Session.stepped_of_step hs).performs hi
  exact ⟨σ, _, s.channel, t.channel, halt, performs⟩

end Machine
end PCode
