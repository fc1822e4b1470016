import PCode.Instruction.Printer
import PCode.Text.Padding
/-!
Instruction memory. Triples are decoded when they are fetched, so an invalid one does harm only if
the machine gets there.
-/

namespace PCode

structure Program where
  code : Array Triple
  deriving DecidableEq

namespace Program

def ofInstructions (is : List Instruction) : Program := ⟨(is.map Instruction.encode).toArray⟩

def length (p : Program) : Nat := p.code.size

def isEmpty (p : Program) : Bool := p.code.isEmpty

def get? (p : Program) (index : Nat) : Option Triple := p.code[index]?

def fetch (p : Program) (index : Nat) : Except Error Triple :=
  match p.get? index with
  | some t => .ok t
  | none => .error (.invalidProgramCounter index p.length)

def checkTarget (p : Program) (target : Nat) : Except Error Unit :=
  if target < p.length then .ok () else .error (.invalidProgramCounter target p.length)

theorem fetch_eq_ok_iff {p : Program} {index : Nat} {t : Triple} :
    p.fetch index = .ok t ↔ p.get? index = some t := by
  unfold fetch
  split <;> simp_all

theorem get?_eq_none_iff {p : Program} {index : Nat} : p.get? index = none ↔ p.length ≤ index :=
  Array.getElem?_eq_none_iff

theorem lt_length_of_get? {p : Program} {index : Nat} {t : Triple} (h : p.get? index = some t) :
    index < p.length :=
  (Array.getElem?_eq_some_iff.mp h).1

theorem fetch_eq_error_iff {p : Program} {index : Nat} {e : Error} :
    p.fetch index = .error e ↔
      p.length ≤ index ∧ e = .invalidProgramCounter index p.length := by
  rw [← get?_eq_none_iff, fetch]
  split <;> grind

theorem checkTarget_eq_ok_iff {p : Program} {target : Nat} :
    p.checkTarget target = .ok () ↔ target < p.length := by
  simp [checkTarget]

theorem checkTarget_eq_error_iff {p : Program} {target : Nat} {e : Error} :
    p.checkTarget target = .error e ↔
      p.length ≤ target ∧ e = .invalidProgramCounter target p.length := by
  unfold checkTarget
  split <;> grind

/-- An undecodable triple is listed as stored. -/
def line (index : Nat) (t : Triple) : String :=
  let body := match t.decode with
    | .ok i => i.text
    | .error _ => t.text
  s!"{Text.padLeft 4 (toString index)}  {body}\n"

def listing (p : Program) : String :=
  String.join (p.code.toList.mapIdx line)

end Program
end PCode
