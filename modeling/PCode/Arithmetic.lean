import PCode.Error
import PCode.Instruction.Basic
/-!
What the operations compute: the exact integer result or an error, never a wrapped one.
-/

namespace PCode

/-- An exact result, which must be a word. -/
def exactResult (operation : String) (n : Int) : Except Error Word :=
  match Word.ofInt? n with
  | some w => .ok w
  | none => .error (.integerOverflow operation)

def Unary.eval (op : Unary) (x : Word) : Except Error Word :=
  match op with
  | negate => exactResult op.mnemonic (-x.toInt)
  | odd => .ok (Word.ofBool (x.toInt % 2 ≠ 0))

/-- Division truncates toward zero, and a remainder has the sign of `x`. There is no remainder where
the quotient is no word. -/
def Binary.eval (op : Binary) (x y : Word) : Except Error Word :=
  match op with
  | plus => exactResult op.mnemonic (x.toInt + y.toInt)
  | minus => exactResult op.mnemonic (x.toInt - y.toInt)
  | times => exactResult op.mnemonic (x.toInt * y.toInt)
  | quotient =>
    if y = 0 then .error .divisionByZero
    else exactResult op.mnemonic (x.toInt.tdiv y.toInt)
  | remainder =>
    if y = 0 then .error .moduloByZero
    else do
      let _ ← exactResult op.mnemonic (x.toInt.tdiv y.toInt)
      exactResult op.mnemonic (x.toInt.tmod y.toInt)
  | eq => .ok (Word.ofBool (x.toInt = y.toInt))
  | ne => .ok (Word.ofBool (x.toInt ≠ y.toInt))
  | lt => .ok (Word.ofBool (x.toInt < y.toInt))
  | le => .ok (Word.ofBool (x.toInt ≤ y.toInt))
  | gt => .ok (Word.ofBool (x.toInt > y.toInt))
  | ge => .ok (Word.ofBool (x.toInt ≥ y.toInt))

end PCode
