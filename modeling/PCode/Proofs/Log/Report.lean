import PCode.Machine.Journal
/-!
The lines of a machine's reports, spelled out. A line stands in the paint of its level and names it, and its message
carries what the report is about.
-/

namespace PCode

def Registers.Shown (r : Registers) (text : String) : Prop :=
  text = "pc=" ++ toString r.pc ++ " b=" ++ toString r.base ++ " sp=" ++ toString r.sp

inductive HaltReason.Shown : HaltReason → String → Prop
  | halt : Shown .halt "halt"
  | returnFromMain : Shown .returnFromMain "return from main"

/-- The level of a report, and the message that carries its parts. -/
inductive Event.Carries : Event → Log.Level → String → Prop
  | started (length capacity : Nat) : Carries (.started length capacity) .info
      ("running program of " ++ toString length ++ " instructions (stack capacity " ++ toString capacity ++ ")")
  | executing (index : Nat) (i : Instruction) {indent : Nat} (column : indent = 4 - (toString index).length) :
    Carries (.executing index i) .debug (Text.spaces indent ++ toString index ++ "  " ++ i.text)
  | halted {reason : HaltReason} {cause registers : String} (steps : Nat) {r : Registers} (hc : reason.Shown cause)
      (hr : r.Shown registers) : Carries (.halted reason steps r) .info
      ("halted (" ++ cause ++ ") after " ++ toString steps ++ " instructions, " ++ registers)
  | faulted {registers : String} (e : Error) (pc : Nat) {r : Registers} (hr : r.Shown registers) :
    Carries (.faulted ⟨e, pc, r⟩) .error
      (e.message ++ " at instruction " ++ toString pc ++ " (" ++ registers ++ ")")

/-- The paint and the tag of the levels that a machine reports at. -/
inductive Log.Level.Marks : Log.Level → Log.Paint → String → Prop
  | debug : Marks .debug { color := some .cyan } "[DEBUG] "
  | info : Marks .info {} "[INFO ] "
  | error : Marks .error { color := some .red, bold := true } "[ERROR] "

namespace Event

/-- The line of a report. The style says which of the parts before the message are there. -/
def Reports (terminal : Log.Terminal) (style : Log.Style) (now : Log.Instant) (e : Event) (line : String) : Prop :=
  ∃ level paint tag message, e.Carries level message ∧ level.Marks paint tag ∧
    line = terminal.put paint ++ (if style.timestamp then now.text ++ " " else "") ++
      (if style.level then tag else "") ++ (if style.target then "pl0_vm::virtual_machine::vm: " else "") ++
      message ++ "\n" ++ terminal.reset

theorem carries_message (e : Event) : e.Carries e.level e.message := by
  cases e with
  | started length capacity => exact .started length capacity
  | executing index i => exact .executing index i rfl
  | halted reason steps r =>
    cases reason with
    | halt => exact .halted steps .halt rfl
    | returnFromMain => exact .halted steps .returnFromMain rfl
  | faulted fault => exact .faulted fault.error fault.pc rfl

theorem marks_paint (e : Event) : e.level.Marks e.level.paint ("[" ++ Text.padRight 5 e.level.name ++ "] ") := by
  have info : "[" ++ Text.padRight 5 Log.Level.info.name ++ "] " = "[INFO ] " := by decide
  have debug : "[" ++ Text.padRight 5 Log.Level.debug.name ++ "] " = "[DEBUG] " := by decide
  have error : "[" ++ Text.padRight 5 Log.Level.error.name ++ "] " = "[ERROR] " := by decide
  cases e with
  | started | halted =>
    rw [level, info]
    exact .info
  | executing =>
    rw [level, debug]
    exact .debug
  | faulted =>
    rw [level, error]
    exact .error

theorem reports_line (terminal : Log.Terminal) (style : Log.Style) (now : Log.Instant) (e : Event) :
    e.Reports terminal style now (Log.line terminal style now e.level target e.message) :=
  ⟨_, _, _, _, e.carries_message, e.marks_paint, rfl⟩

example : Log.line .plain {} ⟨1767323045, 678000000⟩ .info target (started 3 64).message =
    "2026-01-02 03:04:05.678 [INFO ] pl0_vm::virtual_machine::vm: " ++
      "running program of 3 instructions (stack capacity 64)\n" := by decide

end Event
end PCode
