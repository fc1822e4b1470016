import PCode.Proofs.Channel.Transcript
import PCode.Proofs.Session.Simulation
/-!
One machine's output as another's input. A run leaves the transcript of the words it has written, and to a
machine that reads it the transcript is a queue of these words.
-/

namespace PCode

/-- The word that an instruction writes. -/
def Core.output? (c : Core) : Instruction → Option Word
  | .sio .write =>
    match c.stack.pop with
    | .ok w _ => some w
    | .error _ _ => none
  | _ => none

namespace Execution

def output? (x : Execution) : Option Word := x.core.output? x.instruction

/-- What the executions write, in order. -/
def outputs (log : List Execution) : List Word := log.filterMap output?

theorem outputs_append (log log' : List Execution) : outputs (log ++ log') = outputs log ++ outputs log' :=
  List.filterMap_append

theorem outputs_singleton (x : Execution) : outputs [x] = x.output?.toList := by
  cases h : x.output? with
  | none => simp [outputs, h]
  | some w => simp [outputs, h]

end Execution

open Execution

theorem Core.output?_eq_none {c : Core} {i : Instruction} (h : i ≠ .sio .write) : c.output? i = none := by
  unfold output?
  split
  next => exact absurd rfl h
  next => rfl

theorem Core.output?_write {c : Core} {w : Word} {t : Stack} (operand : c.stack.pop = .ok w t) :
    c.output? (.sio .write) = some w := by
  simp only [output?, operand]

theorem TextChannel.sink_read {ρ ω : Type} [LineSource ρ] (c : TextChannel ρ ω) : c.read.2.sink = c.sink := by
  fun_induction TextChannel.read c with
  | case1 | case2 | case3 => rfl
  | case4 _ _ _ _ _ ih => exact ih

namespace Session

section

variable {program : Program} {i : Instruction} {core core' : Core} {e : Error} {request : Request}

theorem output?_of_execute_error (h : Core.execute program i core = .error e core') : core.output? i = none := by
  by_cases hi : i = .sio .write
  · subst hi
    rcases operand : core.stack.pop with ⟨w, t⟩ | ⟨e', t⟩
    · have ok : Core.execute program (.sio .write) core = .ok (.emit w) { core with stack := t } := by
        simp [Core.execute, Core.provide, operand]
      rw [ok] at h
      cases h
    · simp only [Core.output?, operand]
  · exact Core.output?_eq_none hi

theorem output?_of_execute_ok (h : Core.execute program i core = .ok request core')
    (other : ∀ w, request ≠ .emit w) : core.output? i = none := by
  apply Core.output?_eq_none
  rintro rfl
  obtain ⟨w, hw⟩ := eq_emit_of_execute_write h
  exact other w hw

theorem channel_serve_accept {σ : Type} [Channel σ] (core : Core) (channel : σ) :
    (serve .accept core channel).2 = (Channel.read channel).2 := by
  rcases hr : Channel.read channel with ⟨e | w, channel'⟩
  · simp only [serve, hr]
  · simp only [serve, hr]
    split <;> rfl

end

variable {ρ ω : Type} [LineSource ρ] [TextSink ω] {kept : ω → String → Prop} {c c' : TextChannel ρ ω}
  {s : Session (TextChannel ρ ω)} {text : String} {program : Program} {i : Instruction} {core : Core}
  {result : EStateM.Result Error Core (Option HaltReason)}

theorem kept_of_perform (steady : TextSink.Steady kept) (h : kept c.sink text)
    (hp : perform program i core c = (result, c')) : kept c'.sink (text ++ transcript (core.output? i).toList) := by
  have silent {d : TextChannel ρ ω} (hi : core.output? i = none) (hd : d.sink = c.sink) :
      kept d.sink (text ++ transcript (core.output? i).toList) := by
    have empty : transcript [] = "" := rfl
    rwa [hi, hd, Option.toList_none, empty, String.append_empty]
  unfold perform at hp
  cases hx : Core.execute program i core with
  | error e d =>
    rw [hx] at hp
    cases hp
    exact silent (output?_of_execute_error hx) rfl
  | ok request d =>
    rw [hx] at hp
    cases request with
    | proceed | halt =>
      cases hp
      exact silent (output?_of_execute_ok hx (by simp)) rfl
    | emit w =>
      obtain ⟨rfl, t, operand⟩ := eq_write_of_execute_eq_emit hx
      obtain ⟨hw, kw⟩ := TextChannel.write_steady steady h w
      have hw : Channel.write w c = (.ok (), (c.write w).2) := Prod.ext hw rfl
      simp only [serve, hw] at hp
      cases hp
      rwa [Core.output?_write operand, Option.toList_some, transcript_singleton]
    | accept =>
      have hs := channel_serve_accept d c
      have hc : c' = c.read.2 := (congrArg Prod.snd hp).symm.trans hs
      rw [hc]
      exact silent (output?_of_execute_ok hx (by simp)) c.sink_read

theorem kept_step (steady : TextSink.Steady kept) (h : kept s.channel.sink text) :
    kept s.step.2.channel.sink (text ++ transcript (outputs s.machine.execution?.toList)) := by
  obtain ⟨m, c, journal⟩ := s
  cases next : m.next? with
  | none =>
    have idle := (step_congr_of_idle journal next c c).1
    have nothing : m.execution? = none := by rw [Machine.execution?, next]; rfl
    have empty : transcript (outputs []) = "" := rfl
    rw [idle, nothing, Option.toList_none, empty, String.append_empty]
    exact h
  | some i =>
    rcases hp : perform m.program i m.core.next c with ⟨result, c'⟩
    have executed : outputs m.execution?.toList = (m.core.next.output? i).toList := by
      rw [Machine.execution?_of_next? next]
      exact outputs_singleton ⟨m.core, i⟩
    rw [(step_congr journal next hp hp).1, executed]
    exact kept_of_perform steady h hp

theorem kept_after (steady : TextSink.Steady kept) (h : kept s.channel.sink text) (n : Nat) :
    kept (s.after n).channel.sink (text ++ transcript (outputs (s.executions n))) := by
  induction n with
  | zero =>
    have empty : transcript (outputs []) = "" := rfl
    rw [executions, empty, String.append_empty]
    exact h
  | succ n ih =>
    have hs := kept_step steady ih
    rwa [String.append_assoc, ← transcript_append, ← outputs_append, ← executions_succ', ← after_succ'] at hs

theorem simulates_transcript (steady : TextSink.Steady kept) {sink : ω} (empty : kept sink "") (ws : List Word)
    (m : Machine) (journal : Journal) (n : Nat) :
    Simulates kept ((⟨m, .ofText (transcript ws) sink, journal⟩ : Session _).after n)
      ((⟨m, .ofInput ws, journal⟩ : Session _).after n) := by
  let s : Session (TextChannel ByteSource ω) := ⟨m, .ofText (transcript ws) sink, journal⟩
  let t : Session QueueChannel := ⟨m, .ofInput ws, journal⟩
  have start : TextChannel.Mirrors kept s.channel t.channel := TextChannel.mirrors_ofText empty (spelled_transcript ws)
  obtain ⟨alike, h⟩ := alike_after (.equal rfl rfl) steady start n
  exact (alike.step steady h).1

/-- The words that `n` steps write reach any machine that is given their transcript. -/
structure Relayed (kept : ω → String → Prop) (s : Session (TextChannel ρ ω)) (n : Nat) : Prop where
  written : kept (s.after n).channel.sink (transcript (outputs (s.executions n)))
  received : ∀ {τ : Type} [TextSink τ] {held : τ → String → Prop}, TextSink.Steady held → ∀ {sink : τ}, held sink "" →
    ∀ (m : Machine) (journal : Journal) (k : Nat),
      Simulates held ((⟨m, .ofText (transcript (outputs (s.executions n))) sink, journal⟩ : Session _).after k)
        ((⟨m, .ofInput (outputs (s.executions n)), journal⟩ : Session _).after k)

theorem legible_of_steady (steady : TextSink.Steady kept) (empty : kept s.channel.sink "") (ws : List Word) (n : Nat) :
    s.channel.Legible kept ws ∧ s.Relayed kept n := by
  refine ⟨TextChannel.legible steady empty ws, ?_, ?_⟩
  · have h := kept_after steady empty n
    rwa [String.empty_append] at h
  · intro τ _ held steady' sink empty' m journal k
    exact simulates_transcript steady' empty' _ m journal k

/-- Writes a word again and again. -/
def emitting : Session (TextChannel ByteSource BoundedSink) :=
  ⟨.ofProgram (.ofInstructions [.lit (-7), .sio .write, .jmp 0]), .ofText "" {}, ⟨.error, #[]⟩⟩

theorem legible_emitting :
    BoundedSink.Holds emitting.channel.sink "" ∧ outputs (emitting.executions 5) = [-7, -7] ∧
      emitting.channel.Legible BoundedSink.Holds [Int64.minValue, Int64.maxValue] ∧
      emitting.Relayed BoundedSink.Holds 5 :=
  ⟨rfl, by decide +kernel, legible_of_steady (s := emitting) BoundedSink.steady rfl _ _⟩

end Session
end PCode
