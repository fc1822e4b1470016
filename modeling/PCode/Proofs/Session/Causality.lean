import PCode.Proofs.Session.Locality
/-!
Words in and out of a queue. What a run reads is a prefix of the input, what it writes comes after the
output, and nothing else that the queue holds makes a difference.
-/

namespace PCode.Session

/-- The word that a step reads; it leaves it on top of the stack. -/
def accepted? (s : Session QueueChannel) : Option Word :=
  if s.machine.next? = some (.sio .read) ∧ s.step.1.isOk then s.step.2.machine.stack.back? else none

/-- The word that a step writes; it finds it on top of the stack. -/
def emitted? (s : Session QueueChannel) : Option Word :=
  if s.machine.next? = some (.sio .write) ∧ s.step.1.isOk then s.machine.stack.back? else none

def accepted : Nat → Session QueueChannel → List Word
  | 0, _ => []
  | n + 1, s => s.accepted?.toList ++ accepted n s.step.2

def emitted : Nat → Session QueueChannel → List Word
  | 0, _ => []
  | n + 1, s => s.emitted?.toList ++ emitted n s.step.2

def withChannel {σ : Type} (channel : σ) (s : Session σ) : Session σ := { s with channel }

/-- Takes these words from any queue that begins with them, and adds those. -/
def Exchanges (program : Program) (i : Instruction) (c : Core) (taken added : List Word)
    (result : EStateM.Result Error Core (Option HaltReason)) : Prop :=
  ∀ rest out, perform program i c (⟨taken ++ rest, out⟩ : QueueChannel) = (result, ⟨rest, out ++ added⟩)

variable {s : Session QueueChannel} {i : Instruction} {c d : Core} {program : Program} {w : Word}
  {taken added rest : List Word} {n : Nat} {result : EStateM.Result Error Core (Option HaltReason)}

theorem exchanges_of_error {e : Error} (h : Core.execute program i c = .error e d) :
    Exchanges program i c [] [] (.error e d) := by
  intro rest out
  simp [perform, h]

theorem exchanges_of_proceed (h : Core.execute program i c = .ok .proceed d) :
    Exchanges program i c [] [] (.ok none d) := by
  intro rest out
  simp [perform, h, serve]

theorem exchanges_of_halt {reason : HaltReason} (h : Core.execute program i c = .ok (.halt reason) d) :
    Exchanges program i c [] [] (.ok (some reason) d) := by
  intro rest out
  simp [perform, h, serve]

theorem exchanges_of_emit (h : Core.execute program i c = .ok (.emit w) d) :
    Exchanges program i c [] [w] (.ok none d) := by
  intro rest out
  simp [perform, h, serve, Channel.write, QueueChannel.write]

theorem exchanges_of_accept (h : Core.execute program i c = .ok .accept c) (w : Word) :
    ∃ t, c.stack.push w = .ok () t ∧ Exchanges program i c [w] [] (.ok none { c with stack := t }) := by
  have room := Stack.ensureRoom_eq_ok_iff.mp (room_of_execute_eq_accept h)
  have hp : c.stack.push w = .ok () { c.stack with cells := c.stack.cells.push w } :=
    Stack.push_eq_ok_iff.mpr ⟨room, rfl⟩
  refine ⟨_, hp, ?_⟩
  intro rest out
  have hr : Channel.read (⟨w :: rest, out⟩ : QueueChannel) = (.ok w, ⟨rest, out⟩) := rfl
  simp [perform, h, serve, hr, Core.push, Core.update, hp]

theorem step_of_starving (next : s.machine.next? = some i)
    (h : Core.execute s.machine.program i s.machine.core.next = .ok .accept d) (empty : s.channel.input = []) :
    ∃ fault t, s.step = (.error fault, t) ∧ ∃ text, fault.error = .io text := by
  have hr : Channel.read s.channel = (.error (.io "input exhausted"), s.channel) := by
    change QueueChannel.read s.channel = _
    rw [QueueChannel.read, empty]
  have hp : perform s.machine.program i s.machine.core.next s.channel =
      (.error (.io "input exhausted") d, s.channel) := by
    simp only [perform, h, serve, hr]
  exact ⟨_, _, (Stepped.failed next hp rfl).step_eq, _, rfl⟩

theorem step_of_exchanges (next : s.machine.next? = some i)
    (h : Exchanges s.machine.program i s.machine.core.next taken added result)
    (input : s.channel.input = taken ++ rest) (zs : List Word) (out : Array Word) :
    (s.withChannel ⟨taken ++ zs, out⟩).step = (s.step.1, s.step.2.withChannel ⟨zs, out ++ added⟩) := by
  obtain ⟨m, ⟨xs, o⟩, journal⟩ := s
  obtain rfl : xs = taken ++ rest := input
  exact (step_congr journal next (h rest o) (h zs out)).2

theorem exists_execute_of_isOk (next : s.machine.next? = some i) (ok : s.step.1.isOk) :
    ∃ r d, Core.execute s.machine.program i s.machine.core.next = .ok r d := by
  cases he : Core.execute s.machine.program i s.machine.core.next with
  | ok r d => exact ⟨r, d, rfl⟩
  | error e d =>
    have hp : perform s.machine.program i s.machine.core.next s.channel = (.error e d, s.channel) := by
      simp only [perform, he]
    rw [(Stepped.failed next hp rfl).step_eq] at ok
    cases ok

theorem accepted?_eq_none (next : s.machine.next? = some i)
    (h : ∀ d, Core.execute s.machine.program i s.machine.core.next ≠ .ok .accept d) : s.accepted? = none := by
  apply if_neg
  rintro ⟨reading, ok⟩
  obtain rfl := Option.some.inj (next.symm.trans reading)
  obtain ⟨r, d, he⟩ := exists_execute_of_isOk next ok
  obtain rfl := eq_accept_of_execute_read he
  exact h d he

theorem emitted?_eq_none (next : s.machine.next? = some i)
    (h : ∀ w d, Core.execute s.machine.program i s.machine.core.next ≠ .ok (.emit w) d) :
    s.emitted? = none := by
  apply if_neg
  rintro ⟨writing, ok⟩
  obtain rfl := Option.some.inj (next.symm.trans writing)
  obtain ⟨r, d, he⟩ := exists_execute_of_isOk next ok
  obtain ⟨w, rfl⟩ := eq_emit_of_execute_write he
  exact h w d he

theorem emitted?_eq_some (next : s.machine.next? = some i)
    (h : Core.execute s.machine.program i s.machine.core.next = .ok (.emit w) d) : s.emitted? = some w := by
  obtain ⟨rfl, t, hp⟩ := eq_write_of_execute_eq_emit h
  have performs := performs_of_perform (exchanges_of_emit h s.channel.input s.channel.output)
  have hs : s.step.1.isOk := by
    rw [(Stepped.proceeded next performs).step_eq]
    rfl
  rw [emitted?, if_pos ⟨next, hs⟩]
  exact (Stack.pop_eq_ok_iff.mp hp).2.1

theorem accepted?_eq_some {t : Stack} (next : s.machine.next? = some (.sio .read))
    (room : s.machine.core.stack.push w = .ok () t)
    (h : perform s.machine.program (.sio .read) s.machine.core.next s.channel =
      (.ok none { s.machine.core.next with stack := t }, ⟨rest, s.channel.output⟩)) : s.accepted? = some w := by
  have hs := (Stepped.proceeded next (performs_of_perform h)).step_eq
  rw [accepted?, hs, if_pos ⟨next, rfl⟩]
  obtain ⟨-, rfl⟩ := Stack.push_eq_ok_iff.mp room
  exact Array.back?_push

/-- None of the next `n` steps fails for want of input. -/
def Served (n : Nat) (s : Session QueueChannel) : Prop :=
  ∀ k < n, ∀ fault, (s.after k).step.1 = .error fault → ∀ text, fault.error ≠ .io text

theorem exists_exchanges (served : s.Served 1) (next : s.machine.next? = some i) :
    ∃ rest result, s.channel.input = s.accepted?.toList ++ rest ∧
      Exchanges s.machine.program i s.machine.core.next s.accepted?.toList s.emitted?.toList result := by
  cases he : Core.execute s.machine.program i s.machine.core.next with
  | error e d =>
    rw [accepted?_eq_none next (by simp [he]), emitted?_eq_none next (by simp [he])]
    exact ⟨_, _, rfl, exchanges_of_error he⟩
  | ok request d =>
    cases request with
    | proceed =>
      rw [accepted?_eq_none next (by simp [he]), emitted?_eq_none next (by simp [he])]
      exact ⟨_, _, rfl, exchanges_of_proceed he⟩
    | halt reason =>
      rw [accepted?_eq_none next (by simp [he]), emitted?_eq_none next (by simp [he])]
      exact ⟨_, _, rfl, exchanges_of_halt he⟩
    | emit w =>
      rw [accepted?_eq_none next (by simp [he]), emitted?_eq_some next he]
      exact ⟨_, _, rfl, exchanges_of_emit he⟩
    | accept =>
      obtain ⟨rfl, rfl⟩ := eq_read_of_execute_eq_accept he
      cases hx : s.channel.input with
      | nil =>
        obtain ⟨fault, t, hs, text, ht⟩ := step_of_starving next he hx
        exact absurd ht (served 0 Nat.one_pos fault (congrArg Prod.fst hs) text)
      | cons w rest =>
        obtain ⟨t, room, exchanges⟩ := exchanges_of_accept he w
        have hc : s.channel = ⟨[w] ++ rest, s.channel.output⟩ := congrArg (QueueChannel.mk · s.channel.output) hx
        have hp := exchanges rest s.channel.output
        rw [← hc] at hp
        rw [accepted?_eq_some next room hp, emitted?_eq_none next (by simp [he])]
        exact ⟨rest, _, rfl, exchanges⟩

theorem step_withChannel (served : s.Served 1) :
    ∃ rest, s.channel.input = s.accepted?.toList ++ rest ∧ ∀ zs out,
      (s.withChannel ⟨s.accepted?.toList ++ zs, out⟩).step =
        (s.step.1, s.step.2.withChannel ⟨zs, out ++ s.emitted?.toList⟩) := by
  cases next : s.machine.next? with
  | none =>
    have hr : s.accepted? = none := if_neg (by simp [next])
    have hw : s.emitted? = none := if_neg (by simp [next])
    rw [hr, hw]
    refine ⟨_, rfl, ?_⟩
    intro zs out
    have idle := (step_congr_of_idle s.journal next s.channel (⟨zs, out⟩ : QueueChannel)).2
    simpa [withChannel] using idle
  | some i =>
    obtain ⟨rest, result, input, exchanges⟩ := exists_exchanges served next
    exact ⟨rest, input, step_of_exchanges next exchanges input⟩

/-- `t` does what `s` does for `n` steps, and comes to another channel. -/
structure Repeats (n : Nat) (s t : Session QueueChannel) (channel : QueueChannel) : Prop where
  results : ∀ k < n, (t.after k).step.1 = (s.after k).step.1
  ends : t.after n = (s.after n).withChannel channel

theorem repeats_withChannel (served : s.Served n) :
    ∃ rest, s.channel.input = s.accepted n ++ rest ∧
      ∀ zs out, Repeats n s (s.withChannel ⟨s.accepted n ++ zs, out⟩) ⟨zs, out ++ s.emitted n⟩ := by
  induction n generalizing s with
  | zero =>
    refine ⟨s.channel.input, rfl, fun zs out => ⟨nofun, ?_⟩⟩
    simp [accepted, emitted, after]
  | succ n ih =>
    have first : s.Served 1 := by
      intro k hk
      exact served k (by omega)
    have later : s.step.2.Served n := by
      intro k hk
      rw [← after_succ]
      exact served (k + 1) (Nat.succ_lt_succ hk)
    obtain ⟨rest₁, input₁, repeats₁⟩ := step_withChannel first
    obtain ⟨rest, input, repeats⟩ := ih later
    refine ⟨rest, ?_, ?_⟩
    · have hs := repeats₁ rest₁ s.channel.output
      rw [← input₁] at hs
      have hc : s.step.2.channel.input = rest₁ := congrArg (·.2.channel.input) hs
      rw [input₁, ← hc, input, accepted, List.append_assoc]
    · intro zs out
      rw [accepted, List.append_assoc, emitted]
      have hs := repeats₁ (s.step.2.accepted n ++ zs) out
      obtain ⟨results, ends⟩ := repeats zs (out ++ s.emitted?.toList)
      constructor
      · intro k hk
        cases k with
        | zero =>
          have first := congrArg Prod.fst hs
          exact first
        | succ k =>
          rw [after_succ, hs, after_succ]
          exact results k (Nat.lt_of_succ_lt_succ hk)
      · have assoc (xs ys : List Word) : out ++ xs ++ ys = out ++ (xs ++ ys) := by
          rw [← Array.toList_inj]
          simp only [Array.toList_appendList, List.append_assoc]
        rw [after_succ, hs, ends, after_succ, assoc]

/-- The words that go in and out in `n` steps, and all that these steps depend on. -/
structure Causal (n : Nat) (s : Session QueueChannel) : Prop where
  account : ∃ rest, s.channel.input = s.accepted n ++ rest ∧
    (s.after n).channel = ⟨rest, s.channel.output ++ s.emitted n⟩
  extended : ∀ ys out, Repeats n s (s.withChannel ⟨s.channel.input ++ ys, out⟩)
    ⟨(s.after n).channel.input ++ ys, out ++ s.emitted n⟩
  cut : ∀ zs out, Repeats n s (s.withChannel ⟨s.accepted n ++ zs, out⟩) ⟨zs, out ++ s.emitted n⟩
  runs : ∀ zs out r, (∃ t, (s.withChannel ⟨s.accepted n ++ zs, out⟩).run n = some (r, t)) ↔
    ∃ t, s.run n = some (r, t)

theorem causal_of_served (s : Session QueueChannel) (n : Nat) (served : s.Served n) : s.Causal n := by
  obtain ⟨rest, input, repeats⟩ := repeats_withChannel served
  have account : (s.after n).channel = ⟨rest, s.channel.output ++ s.emitted n⟩ := by
    have ends := (repeats rest s.channel.output).ends
    rw [← input] at ends
    exact congrArg channel ends
  constructor
  case account => exact ⟨rest, input, account⟩
  case extended =>
    intro ys out
    rw [account, input, List.append_assoc]
    exact repeats (rest ++ ys) out
  case cut => exact repeats
  case runs =>
    intro zs out r
    cases n with
    | zero => exact Iff.rfl
    | succ n =>
      rw [exists_run_iff, exists_run_iff, (repeats zs out).ends]
      exact Iff.rfl

theorem causal_copying :
    let program := Program.ofInstructions [.sio .read, .sio .write, .jmp 0]
    let s := scripted (.ofProgram program) [5, 6, 7]
    s.Served 4 ∧ s.accepted 4 = [5, 6] ∧ s.emitted 4 = [5] ∧ s.Causal 4 := by
  intro program s
  have served : s.Served 4 := by
    have ok : ∀ k < 4, (s.after k).step.1.isOk := by decide +kernel
    intro k hk fault hf
    have hk := ok k hk
    rw [hf] at hk
    cases hk
  exact ⟨served, by decide +kernel, by decide +kernel, causal_of_served s 4 served⟩

end PCode.Session
