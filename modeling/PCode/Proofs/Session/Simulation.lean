import PCode.Proofs.Channel.Mirror
import PCode.Proofs.Session.Locality
/-!
The same machine over a text and over a queue of the words that the text spells. The two runs go in
lockstep, and when the input has run out they fail at the same instruction, each in its own words.
-/

namespace PCode

namespace Machine

/-- The fault of a machine that has found no input. -/
def starvation (m : Machine) (text : String) : Fault := ⟨.io text, m.core.pc, m.core.next.registers⟩

def starved (m : Machine) (text : String) : Machine :=
  (m.executed (.sio .read) m.core.next (some (.io text))).fail (m.starvation text)

end Machine

def Journal.starved (j : Journal) (m : Machine) (text : String) : Journal :=
  (j.note (.executing m.core.pc (.sio .read))).note (.faulted (m.starvation text))

namespace Session

section

variable {σ : Type} [Channel σ] {m : Machine} {journal : Journal} {channel channel' : σ} {text : String}

theorem stepped_of_starving (journal : Journal) (next : m.next? = some (.sio .read))
    (starving : perform m.program (.sio .read) m.core.next channel = (.error (.io text) m.core.next, channel')) :
    Stepped ⟨m, channel, journal⟩ (.error (m.starvation text)) ⟨m.starved text, channel', journal.starved m text⟩ :=
  .failed next starving rfl

end

section

variable {ω : Type} [TextSink ω] {kept : ω → String → Prop} {c : TextChannel ByteSource ω} {q : QueueChannel}
  {s : Session (TextChannel ByteSource ω)} {t : Session QueueChannel}

open TextChannel (Mirrors)

theorem perform_mirrors (steady : TextSink.Steady kept) (h : Mirrors kept c q) (program : Program)
    (i : Instruction) (core : Core) :
    (∃ result c' q', perform program i core c = (result, c') ∧ perform program i core q = (result, q') ∧
        Mirrors kept c' q') ∨
      ∃ c', i = .sio .read ∧ q.input = [] ∧
        perform program i core c = (.error (.io "unexpected end of input") core, c') ∧
        perform program i core q = (.error (.io "input exhausted") core, q) ∧ Mirrors kept c' q := by
  unfold perform
  cases hx : Core.execute program i core with
  | error e d => exact .inl ⟨.error e d, c, q, rfl, rfl, h⟩
  | ok request d =>
    cases request with
    | proceed => exact .inl ⟨.ok none d, c, q, rfl, rfl, h⟩
    | halt reason => exact .inl ⟨.ok (some reason) d, c, q, rfl, rfl, h⟩
    | emit w =>
      obtain ⟨c', hw, h'⟩ := h.write steady w
      have hw : Channel.write w c = (.ok (), c') := hw
      refine .inl ⟨.ok none d, c', (q.write w).2, ?_, rfl, h'⟩
      simp only [serve, hw]
    | accept =>
      obtain ⟨rfl, rfl⟩ := eq_read_of_execute_eq_accept hx
      rcases h.read with ⟨w, c', q', hc, hq, h'⟩ | ⟨c', empty, hc, hq, h'⟩
      · have hc : Channel.read c = (.ok w, c') := hc
        have hq : Channel.read q = (.ok w, q') := hq
        left
        simp only [serve, hc, hq]
        cases hp : Core.push w d with
        | ok u e => exact ⟨.ok none e, c', q', rfl, rfl, h'⟩
        | error e d => exact ⟨.error e d, c', q', rfl, rfl, h'⟩
      · have hc : Channel.read c = (.error (.io "unexpected end of input"), c') := hc
        have hq : Channel.read q = (.error (.io "input exhausted"), q) := hq
        right
        refine ⟨c', rfl, empty, ?_, ?_, h'⟩
        · simp only [serve, hc]
        · simp only [serve, hq]

/-- Either nothing tells the two apart, or both have failed to read for want of input. -/
inductive Alike (s : Session (TextChannel ByteSource ω)) (t : Session QueueChannel) : Prop
  | equal (machine : s.machine = t.machine) (journal : s.journal = t.journal)
  | starved {m : Machine} {before : Journal} (reading : m.next? = some (.sio .read))
      (exhausted : t.channel.input = [])
      (text : s.machine = m.starved "unexpected end of input" ∧
        s.journal = before.starved m "unexpected end of input")
      (queue : t.machine = m.starved "input exhausted" ∧ t.journal = before.starved m "input exhausted")

structure Simulates (kept : ω → String → Prop) (s : Session (TextChannel ByteSource ω))
    (t : Session QueueChannel) : Prop where
  alike : s.Alike t
  results : s.step.1 = t.step.1 ∨ t.channel.input = [] ∧ ∃ m : Machine,
    s.step.1 = .error (m.starvation "unexpected end of input") ∧ t.step.1 = .error (m.starvation "input exhausted")
  channels : Mirrors kept s.channel t.channel

theorem step_of_equal (steady : TextSink.Steady kept) (h : Mirrors kept c q) (m : Machine) (journal : Journal) :
    let s : Session (TextChannel ByteSource ω) := ⟨m, c, journal⟩
    let t : Session QueueChannel := ⟨m, q, journal⟩
    Simulates kept s t ∧ s.step.2.Alike t.step.2 ∧ Mirrors kept s.step.2.channel t.step.2.channel := by
  intro s t
  have equal : s.Alike t := .equal rfl rfl
  cases hn : m.next? with
  | none =>
    obtain ⟨hq, hc⟩ := step_congr_of_idle journal hn q c
    refine ⟨⟨equal, .inl (congrArg Prod.fst hc), h⟩, ?_⟩
    rw [hc, hq]
    exact ⟨.equal rfl rfl, h⟩
  | some i =>
    rcases perform_mirrors steady h m.program i m.core.next with
      ⟨result, c', q', hc, hq, h'⟩ | ⟨c', rfl, empty, hc, hq, h'⟩
    · obtain ⟨hq, hc⟩ := step_congr journal hn hq hc
      refine ⟨⟨equal, .inl (congrArg Prod.fst hc), h⟩, ?_⟩
      rw [hc, hq]
      exact ⟨.equal rfl rfl, h'⟩
    · have hs := (stepped_of_starving journal hn hc).step_eq
      have ht := (stepped_of_starving journal hn hq).step_eq
      refine ⟨⟨equal, .inr ⟨empty, m, congrArg Prod.fst hs, congrArg Prod.fst ht⟩, h⟩, ?_⟩
      rw [hs, ht]
      exact ⟨.starved hn empty ⟨rfl, rfl⟩ ⟨rfl, rfl⟩, h'⟩

theorem Alike.step (alike : s.Alike t) (steady : TextSink.Steady kept) (h : Mirrors kept s.channel t.channel) :
    Simulates kept s t ∧ s.step.2.Alike t.step.2 ∧ Mirrors kept s.step.2.channel t.step.2.channel := by
  cases alike with
  | equal machine journal =>
    obtain ⟨m, c, j⟩ := s
    obtain ⟨m', q, j'⟩ := t
    obtain rfl : m = m' := machine
    obtain rfl : j = j' := journal
    exact step_of_equal steady h m j
  | @starved m before reading exhausted text queue =>
    have hs : s.step = (.error (m.starvation "unexpected end of input"), s) :=
      step_of_faulted (by rw [text.1]; rfl) (by rw [text.1]; rfl)
    have ht : t.step = (.error (m.starvation "input exhausted"), t) :=
      step_of_faulted (by rw [queue.1]; rfl) (by rw [queue.1]; rfl)
    have still : s.Alike t := .starved reading exhausted text queue
    refine ⟨⟨still, .inr ⟨exhausted, m, congrArg Prod.fst hs, congrArg Prod.fst ht⟩, h⟩, ?_⟩
    rw [hs, ht]
    exact ⟨still, h⟩

theorem alike_after (alike : s.Alike t) (steady : TextSink.Steady kept) (h : Mirrors kept s.channel t.channel)
    (n : Nat) : (s.after n).Alike (t.after n) ∧ Mirrors kept (s.after n).channel (t.after n).channel := by
  induction n with
  | zero => exact ⟨alike, h⟩
  | succ n ih =>
    rw [after_succ', after_succ']
    exact (ih.1.step steady ih.2).2

theorem simulates_ofText (steady : TextSink.Steady kept) {sink : ω} (empty : kept sink "") {text : String}
    {input : List Word} (spelled : Spelled (Text.words text.toList) input) (m : Machine) (journal : Journal)
    (n : Nat) :
    Simulates kept ((⟨m, .ofText text sink, journal⟩ : Session _).after n)
      ((⟨m, .ofInput input, journal⟩ : Session _).after n) := by
  let s : Session (TextChannel ByteSource ω) := ⟨m, .ofText text sink, journal⟩
  let t : Session QueueChannel := ⟨m, .ofInput input, journal⟩
  have start : Mirrors kept s.channel t.channel := TextChannel.mirrors_ofText empty spelled
  obtain ⟨alike, h⟩ := alike_after (.equal rfl rfl) steady start n
  exact (alike.step steady h).1

end

theorem spelled_signed : Spelled (Text.words "\n +05".toList) [5] := by
  have digits : Numeral.IsDigits ['0', '5'] := ⟨List.cons_ne_nil _ _, by simp⟩
  have run : "\n +05".toList.dropWhile Text.isBlank = ['+', '0', '5'] := by decide
  have after : ['0', '5'].dropWhile (fun d => !Text.isBlank d) = [] := by decide
  rw [Text.words_of_run run, after, Text.words_nil]
  exact .cons (.plus digits) .nil

theorem simulates_copying :
    let program := Program.ofInstructions [.sio .read, .sio .write, .jmp 0]
    let s : Session (TextChannel ByteSource BoundedSink) := ⟨.ofProgram program, .ofText "\n +05" {}, ⟨.error, #[]⟩⟩
    let t := scripted (.ofProgram program) [5]
    BoundedSink.Holds {} "" ∧ Simulates BoundedSink.Holds (s.after 4) (t.after 4) := by
  intro program s t
  exact ⟨rfl, simulates_ofText BoundedSink.steady rfl spelled_signed (.ofProgram program) ⟨.error, #[]⟩ 4⟩

end Session
end PCode
