import PCode.Channel.Basic
import PCode.Machine.Journal
/-!
A machine at work: single steps and whole runs over a channel. A machine that has halted, or has
faulted and holds the fault, stays as it is until it is reset.
-/

namespace PCode

structure Session (σ : Type) where
  machine : Machine
  channel : σ
  journal : Journal

namespace Session

variable {σ : Type} [Channel σ]

/-- Does what an instruction asked for. The result says whether it halts the machine. -/
def serve (request : Request) (core : Core) (channel : σ) :
    EStateM.Result Error Core (Option HaltReason) × σ :=
  match request with
  | .proceed => (.ok none core, channel)
  | .halt reason => (.ok (some reason) core, channel)
  | .emit value =>
    match Channel.write value channel with
    | (.ok (), channel) => (.ok none core, channel)
    | (.error e, channel) => (.error e core, channel)
  | .accept =>
    match Channel.read channel with
    | (.error e, channel) => (.error e core, channel)
    | (.ok value, channel) =>
      match Core.push value core with
      | .ok _ core => (.ok none core, channel)
      | .error e core => (.error e core, channel)

def perform (program : Program) (i : Instruction) (core : Core) (channel : σ) :
    EStateM.Result Error Core (Option HaltReason) × σ :=
  match Core.execute program i core with
  | .ok request core => serve request core channel
  | .error e core => (.error e core, channel)

def carryOut (s : Session σ) (index : Nat) (i : Instruction) :
    Except Fault (Option HaltReason) × Session σ :=
  let ⟨⟨program, settings, core, state, haltReason, fault, steps, profile, trace⟩, channel, journal⟩ :=
    s
  let journal := journal.note (.executing index i)
  let machine (core : Core) (error : Option Error) : Machine :=
    { program, settings, core, state, haltReason, fault,
      steps := steps + 1
      profile := profile.record i.opcode
      trace := trace.map fun t => t.record index i core.registers core.stack.cells error }
  match perform program i core channel with
  | (.ok halt core, channel) => (.ok halt, ⟨machine core none, channel, journal⟩)
  | (.error e core, channel) =>
    (.error ⟨e, index, core.registers⟩, ⟨machine core (some e), channel, journal⟩)

/-- Fetch, count on, decode, execute. -/
def cycle (s : Session σ) : Except Fault (Option HaltReason) × Session σ :=
  let ⟨machine, channel, journal⟩ := s
  let index := machine.core.pc
  match machine.fetch with
  | (.error e, machine) =>
    (.error ⟨e, index, machine.registers⟩, ⟨machine, channel, journal⟩)
  | (.ok i, machine) => carryOut ⟨machine, channel, journal⟩ index i

/-- Reports the end before it is taken on. -/
def halt (s : Session σ) (reason : HaltReason) : Session σ :=
  let event := Event.halted reason s.machine.steps s.machine.registers
  { s with machine := s.machine.halt reason, journal := s.journal.note event }

def fail (s : Session σ) (fault : Fault) : Session σ :=
  { s with machine := s.machine.fail fault, journal := s.journal.note (.faulted fault) }

def advance (s : Session σ) : Except Fault Machine.State × Session σ :=
  match cycle { s with machine := s.machine.start } with
  | (.ok none, t) => (.ok .running, t)
  | (.ok (some reason), t) => (.ok .halted, t.halt reason)
  | (.error fault, t) => (.error fault, t.fail fault)

/-- A machine in the faulted state that holds no fault goes on. -/
def step (s : Session σ) : Except Fault Machine.State × Session σ :=
  match s.machine.state with
  | .halted => (.ok .halted, s)
  | .faulted =>
    match s.machine.fault with
    | some fault => (.error fault, s)
    | none => s.advance
  | .ready | .running => s.advance

/-- Steps until the machine halts or faults, `none` if it does neither in as many steps. -/
def finish : Nat → Session σ → Option (Except Fault Summary × Session σ)
  | 0, _ => none
  | fuel + 1, s =>
    match s.step with
    | (.error fault, t) => some (.error fault, t)
    | (.ok .halted, t) => some (.ok t.machine.summary, t)
    | (.ok _, t) => finish fuel t

/-- A ready machine reports that it starts. -/
def announce (s : Session σ) : Session σ :=
  match s.machine.state with
  | .ready =>
    { s with journal :=
        s.journal.note (.started s.machine.program.length s.machine.core.stack.capacity) }
  | _ => s

def run (fuel : Nat) (s : Session σ) : Option (Except Fault Summary × Session σ) :=
  finish fuel s.announce

/-- The channel stays as it is. -/
def reset (s : Session σ) : Session σ := { s with machine := s.machine.reset }

end Session
end PCode
