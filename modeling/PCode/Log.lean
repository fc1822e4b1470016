import PCode.Calendar
import PCode.Text.Blank
/-!
Leveled log lines: an optional time stamp, level tag and target, then the message. What a terminal
is sent for a colour is its own affair.
-/

namespace PCode.Log

inductive Level where
  | debug | info | warn | error
  deriving DecidableEq

namespace Level

def rank : Level → Nat
  | debug => 0
  | info => 1
  | warn => 2
  | error => 3

instance : Ord Level := ⟨fun a b => compare a.rank b.rank⟩

instance : LE Level := ⟨fun a b => a.rank ≤ b.rank⟩

instance (a b : Level) : Decidable (a ≤ b) := inferInstanceAs (Decidable (a.rank ≤ b.rank))

def name : Level → String
  | debug => "DEBUG"
  | info => "INFO"
  | warn => "WARN"
  | error => "ERROR"

/-- Reads a name in any ASCII letter case, blanks around it ignored. -/
def ofName? (s : String) : Option Level :=
  match String.ofList ((Text.trim s.toList).map Char.toLower) with
  | "debug" => some debug
  | "info" => some info
  | "warn" => some warn
  | "warning" => some warn
  | "error" => some error
  | _ => none

end Level

/-- A reading of the clock since the start of 1970. -/
structure Instant where
  seconds : Nat
  nanoseconds : Nat
  deriving DecidableEq

namespace Instant

/-- A reading before 1970 counts as its start. -/
def ofClock (seconds : Int) (nanoseconds : Nat) : Instant :=
  if 0 ≤ seconds then ⟨seconds.toNat, nanoseconds⟩ else ⟨0, 0⟩

def text (t : Instant) : String :=
  let pad := Text.zeroPadded
  let hour := t.seconds / 3600 % 24
  let minute := t.seconds / 60 % 60
  let second := t.seconds % 60
  s!"{(Calendar.ofDays (t.seconds / 86400)).text} {pad 2 hour}:{pad 2 minute}:{pad 2 second}." ++
    pad 3 (t.nanoseconds / 1000000)

end Instant

structure Style where
  timestamp : Bool := true
  level : Bool := true
  target : Bool := true
  deriving DecidableEq

inductive Color where
  | cyan | yellow | red
  deriving DecidableEq

structure Paint where
  color : Option Color := none
  bold : Bool := false
  deriving DecidableEq

def Level.paint : Level → Paint
  | debug => { color := some .cyan }
  | info => {}
  | warn => { color := some .yellow, bold := true }
  | error => { color := some .red, bold := true }

/-- What a terminal is sent to take on a paint, and to drop it again. -/
structure Terminal where
  put : Paint → String
  reset : String

/-- A terminal without colours, or what stands in for one, is sent nothing. -/
def Terminal.plain : Terminal := ⟨fun _ => "", ""⟩

/-- A line is painted from its start, and the paint is dropped after its newline. -/
def line (terminal : Terminal) (style : Style) (now : Instant) (level : Level)
    (target message : String) : String :=
  let timestamp := if style.timestamp then now.text ++ " " else ""
  let tag := if style.level then s!"[{Text.padRight 5 level.name}] " else ""
  let target := if style.target then s!"{target}: " else ""
  s!"{terminal.put level.paint}{timestamp}{tag}{target}{message}\n{terminal.reset}"

structure Logger where
  style : Style := {}
  threshold : Level := .info
  deriving DecidableEq

namespace Logger

def levelKey : String := "PL0_VM_LOG"

/-- Takes the threshold from the value of `levelKey` if it names a level. -/
def configure (l : Logger) (value : Option String) : Logger :=
  match value.bind Level.ofName? with
  | some threshold => { l with threshold }
  | none => l

def enabled (l : Logger) (level : Level) : Bool := l.threshold ≤ level

/-- The line of a message, or nothing if its level is below the threshold. -/
def filtered (l : Logger) (terminal : Terminal) (now : Instant) (level : Level)
    (target message : String) : String :=
  if l.enabled level then line terminal l.style now level target message else ""

end Logger
end PCode.Log
