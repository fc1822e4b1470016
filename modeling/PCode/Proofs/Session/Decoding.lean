import PCode.Proofs.Instruction.Codec
import PCode.Proofs.Session.Fault
/-!
What a run sees of its program. That is its length, and what those triples decode to that are fetched.
-/

namespace PCode

namespace Program

/-- `R` holds between the triples at each index of two programs of one length. -/
structure Matches (R : Nat → Triple → Triple → Prop) (p q : Program) : Prop where
  length : q.length = p.length
  triples : ∀ index t u, p.get? index = some t → q.get? index = some u → R index t u

variable {p q : Program} {R S : Nat → Triple → Triple → Prop}

theorem Matches.mono (h : p.Matches R q) (hRS : ∀ index t u, R index t u → S index t u) : p.Matches S q where
  length := h.length
  triples index t u ht hu := hRS index t u (h.triples index t u ht hu)

theorem Matches.exists_get? (h : p.Matches R q) {index : Nat} {t : Triple} (ht : p.get? index = some t) :
    ∃ u, q.get? index = some u ∧ R index t u := by
  cases hu : q.get? index with
  | none =>
    have inside := lt_length_of_get? ht
    rw [get?_eq_none_iff, h.length] at hu
    exact absurd inside (Nat.not_lt.mpr hu)
  | some u => exact ⟨u, rfl, h.triples index t u ht hu⟩

theorem checkTarget_congr (h : q.length = p.length) (target : Nat) : q.checkTarget target = p.checkTarget target := by
  rw [checkTarget, checkTarget, h]

end Program

theorem Core.execute_congr {p q : Program} (h : q.length = p.length) (i : Instruction) :
    execute q i = execute p i := by
  have hc (target : Nat) : checkTarget q target = checkTarget p target := by
    simp only [checkTarget, Program.checkTarget_congr h]
  cases i <;> simp only [execute, call, jump, hc]

namespace Machine

variable {m : Machine} {q : Program}

def withProgram (q : Program) (m : Machine) : Machine := { m with program := q }

theorem fetch_withProgram (h : m.program.Matches
      (fun index t u => m.Fetches → m.core.pc = index → u.decode = t.decode) q) :
    (m.withProgram q).fetch = (m.fetch.1, m.fetch.2.withProgram q) := by
  cases hb : m.checkBudget with
  | error e =>
    have hb' : (m.withProgram q).checkBudget = .error e := hb
    rw [fetch_of_checkBudget_eq_error hb, fetch_of_checkBudget_eq_error hb']
  | ok =>
    have hb' : (m.withProgram q).checkBudget = .ok () := hb
    cases ht : m.program.get? m.core.pc with
    | none =>
      have outside := Program.get?_eq_none_iff.mp ht
      have hf : m.program.fetch m.core.pc = .error (.invalidProgramCounter m.core.pc m.program.length) :=
        Program.fetch_eq_error_iff.mpr ⟨outside, rfl⟩
      have hf' : (m.withProgram q).program.fetch m.core.pc = .error (.invalidProgramCounter m.core.pc m.program.length) :=
        Program.fetch_eq_error_iff.mpr ⟨h.length ▸ outside, h.length ▸ rfl⟩
      rw [fetch_of_program_eq_error hb hf, fetch_of_program_eq_error hb' hf']
    | some t =>
      obtain ⟨u, hu, decodes⟩ := h.exists_get? ht
      have fetches : m.Fetches := ⟨hb, Program.lt_length_of_get? ht⟩
      have hf := Program.fetch_eq_ok_iff.mpr ht
      have hf' : (m.withProgram q).program.fetch m.core.pc = .ok u := Program.fetch_eq_ok_iff.mpr hu
      rw [fetch_of_program_eq_ok hb hf, fetch_of_program_eq_ok hb' hf', decodes fetches rfl]
      rfl

theorem next?_withProgram (h : (m.withProgram q).fetch = (m.fetch.1, m.fetch.2.withProgram q)) :
    (m.withProgram q).next? = m.next? := by
  unfold next?
  rw [h]
  rfl

end Machine

namespace Session

variable {σ : Type} [Channel σ] {s t : Session σ} {q : Program} {n : Nat}

theorem perform_congr {p : Program} (h : q.length = p.length) (i : Instruction) (c : Core) (channel : σ) :
    perform q i c channel = perform p i c channel := by
  rw [perform, perform, Core.execute_congr h]

def withProgram (q : Program) (s : Session σ) : Session σ := { s with machine := s.machine.withProgram q }

theorem Stepped.withProgram {r : Except Fault Machine.State} (h : Stepped s r t) (hlength : q.length = s.machine.program.length)
    (hf : s.machine.Live → (s.machine.withProgram q).fetch = (s.machine.fetch.1, s.machine.fetch.2.withProgram q)) :
    Stepped (s.withProgram q) r (t.withProgram q) := by
  have hn {i : Instruction} (next : s.machine.next? = some i) : (s.machine.withProgram q).next? = some i := by
    rw [Machine.next?_withProgram (hf (Machine.next?_eq_some_iff.mp next).1), next]
  have hp (i : Instruction) (c : Core) (channel : σ) := perform_congr hlength i c channel
  cases h with
  | halted halted => exact .halted halted
  | faulted faulted held => exact .faulted faulted held
  | unfetched live fetch snapshot =>
    have hf := hf live
    rw [fetch] at hf
    exact .unfetched (s := s.withProgram q) live hf snapshot
  | proceeded next performs =>
    exact .proceeded (hn next) (performs_of_perform ((hp _ _ _).trans performs.perform))
  | stopped next performs =>
    exact .stopped (hn next) (performs_of_perform ((hp _ _ _).trans performs.perform))
  | failed next performs snapshot =>
    exact .failed (hn next) ((hp _ _ _).trans performs) snapshot

theorem program_after (n : Nat) (s : Session σ) : (s.after n).machine.program = s.machine.program := by
  induction n with
  | zero => rfl
  | succ n ih => rw [after_succ', (stepped _).program, ih]

/-- One of the next `n` steps fetches the triple at the index. -/
def Fetched (n : Nat) (s : Session σ) (index : Nat) : Prop :=
  ∃ k < n, (s.after k).machine.Live ∧ (s.after k).machine.Fetches ∧ (s.after k).machine.core.pc = index

/-- `t` takes the same `n` steps as `s`, on a program of its own. -/
def Retold (n : Nat) (s t : Session σ) : Prop :=
  t.after n = (s.after n).withProgram t.machine.program ∧ ∀ k < n, (t.after k).step.1 = (s.after k).step.1

theorem retold_withProgram
    (h : s.machine.program.Matches (fun index t u => s.Fetched n index → u.decode = t.decode) q) :
    Retold n s (s.withProgram q) := by
  apply after_map
  intro k hk
  have hp := program_after k s
  have hlength : q.length = (s.after k).machine.program.length := by rw [hp, h.length]
  apply ((stepped (s.after k)).withProgram hlength _).step_eq
  intro live
  apply Machine.fetch_withProgram
  rw [hp]
  apply h.mono
  intro index t u decodes fetches hpc
  exact decodes ⟨k, hk, live, fetches, hpc⟩

/-- What makes no difference between two programs, if `run` runs either. -/
structure Decoded (p : Program) (run : Program → Session σ) : Prop where
  fetched : ∀ n q, p.Matches (fun index t u => (run p).Fetched n index → u.decode = t.decode) q →
    Retold n (run p) (run q)
  level : ∀ n q, p.Matches (fun _ t u => u.canonical = t.canonical) q → Retold n (run p) (run q)
  encoded : ∀ n q, p.Matches (fun _ t u => u = t ∨ ∃ i, t.decode = .ok i ∧ u = i.encode) q →
    Retold n (run p) (run q)
  unfetched : ∀ n q, p.Matches (fun index t u => (run p).Fetched n index → u = t) q → Retold n (run p) (run q)

theorem decoded_fresh (p : Program) (settings : Settings) (channel : σ) (journal : Journal) :
    Decoded p fun q => ⟨.fresh q settings, channel, journal⟩ := by
  let run (q : Program) : Session σ := ⟨.fresh q settings, channel, journal⟩
  have fetched (n : Nat) (q : Program)
      (h : p.Matches (fun index t u => (run p).Fetched n index → u.decode = t.decode) q) :
      Retold n (run p) (run q) := retold_withProgram (s := run p) h
  constructor
  case fetched => exact fetched
  case level =>
    intro n q h
    apply fetched n q
    apply h.mono
    intro _ t u same _
    rw [← Triple.decode_canonical u, same, Triple.decode_canonical]
  case encoded =>
    intro n q h
    apply fetched n q
    apply h.mono
    rintro _ t _ (rfl | ⟨i, decodes, rfl⟩) _
    · rfl
    · rw [decodes]
      exact Instruction.decode_encode_eq_self_iff.mpr (Triple.decode_eq_ok_iff.mp decodes).1
  case unfetched =>
    intro n q h
    apply fetched n q
    apply h.mono
    intro _ t u same fetched
    rw [same fetched]

end Session
end PCode
