import PCode.Frame
import PCode.Text.Blank
/-!
Machine settings, and how they are read from named variables.
-/

namespace PCode

/-- `stackSize` counts cells, the global frame included. -/
structure Settings where
  stackSize : Nat := 1024
  trace : Bool := false
  stepLimit : Option Nat := none
  deriving DecidableEq

namespace Settings

def stackSizeKey : String := "PL0_VM_STACK_SIZE"

def traceKey : String := "PL0_VM_TRACE"

def stepLimitKey : String := "PL0_VM_STEP_LIMIT"

def readCount (key value : String) : Except Error Nat :=
  match Numeral.readCount (Text.trim value.toList) with
  | .ok n => .ok n
  | .error _ => .error (.invalidConfig key value)

def onSpellings : List String := ["1", "true", "on", "yes"]

def offSpellings : List String := ["", "0", "false", "off", "no"]

/-- Flags are read in any ASCII letter case. -/
def readFlag (key value : String) : Except Error Bool :=
  let spelling := String.ofList ((Text.trim value.toList).map Char.toLower)
  if spelling ∈ onSpellings then .ok true
  else if spelling ∈ offSpellings then .ok false
  else .error (.invalidConfig key value)

/-- The stack must hold the global frame. -/
def validate (s : Settings) : Except Error Unit :=
  if s.stackSize < Frame.headerSize then
    .error (.invalidConfig stackSizeKey (toString s.stackSize))
  else .ok ()

/-- A variable that is not set leaves its default. -/
def readOr (default : α) (read : String → String → Except Error α) (key : String) :
    Option String → Except Error α
  | none => .ok default
  | some value => read key value

def ofLookup (lookup : String → Option String) : Except Error Settings := do
  let defaults : Settings := {}
  let stackSize ← readOr defaults.stackSize readCount stackSizeKey (lookup stackSizeKey)
  let trace ← readOr defaults.trace readFlag traceKey (lookup traceKey)
  let stepLimit ← readOr defaults.stepLimit (fun key value => some <$> readCount key value)
    stepLimitKey (lookup stepLimitKey)
  let settings : Settings := { stackSize, trace, stepLimit }
  settings.validate
  return settings

end Settings
end PCode
