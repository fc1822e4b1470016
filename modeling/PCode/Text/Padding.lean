/-!
Text set in a column: a precision cuts it, a width fills it up with spaces.
-/

namespace PCode.Text

inductive Alignment where
  | left | center | right
  deriving DecidableEq

/-- How a text is set. Widths and precisions count characters. -/
structure Padding where
  width : Nat := 0
  alignment : Alignment := .left
  precision : Option Nat := none
  deriving DecidableEq

def spaces (n : Nat) : String := String.ofList (List.replicate n ' ')

/-- Cuts first, then fills. A centred text has the odd space on its right. -/
def Padding.apply (p : Padding) (s : String) : String :=
  let s := match p.precision with
    | none => s
    | some n => String.ofList (s.toList.take n)
  let gap := p.width - s.length
  match p.alignment with
  | .left => s ++ spaces gap
  | .center => spaces (gap / 2) ++ s ++ spaces (gap - gap / 2)
  | .right => spaces gap ++ s

def padRight (width : Nat) (s : String) : String := ({ width } : Padding).apply s

def padLeft (width : Nat) (s : String) : String :=
  ({ width, alignment := .right } : Padding).apply s

def zeroPadded (width n : Nat) : String :=
  let digits := Nat.toDigits 10 n
  String.ofList (List.replicate (width - digits.length) '0' ++ digits)

end PCode.Text
