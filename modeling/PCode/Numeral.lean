import PCode.Word
/-!
Decimal numerals within bounds: an optional sign, a minus only where the bounds admit a negative
value, then one or more digits. Leading zeros are allowed.
-/

namespace PCode

inductive NumeralError where
  | empty | invalidDigit | tooLarge | tooSmall
  deriving DecidableEq

def NumeralError.message : NumeralError → String
  | .empty => "cannot parse integer from empty string"
  | .invalidDigit => "invalid digit found in string"
  | .tooLarge => "number too large to fit in target type"
  | .tooSmall => "number too small to fit in target type"

namespace Numeral

def digit (c : Char) : Nat := c.toNat - 48

/-- Appends digits to the value `n`, away from zero in the direction `sign`. The first character that
is no digit, or takes the value out of bounds, decides. -/
def readDigits (lo hi sign n : Int) : List Char → Except NumeralError Int
  | [] => .ok n
  | c :: cs =>
    if !c.isDigit then .error .invalidDigit
    else
      let m := n * 10 + sign * digit c
      if hi < m then .error .tooLarge
      else if m < lo then .error .tooSmall
      else readDigits lo hi sign m cs

def read (lo hi : Int) : List Char → Except NumeralError Int
  | [] => .error .empty
  | ['+'] => .error .invalidDigit
  | ['-'] => .error .invalidDigit
  | '+' :: cs => readDigits lo hi 1 0 cs
  | '-' :: cs => if lo < 0 then readDigits lo hi (-1) 0 cs else .error .invalidDigit
  | cs => readDigits lo hi 1 0 cs

def readWord (cs : List Char) : Except NumeralError Word :=
  (read Word.least Word.greatest cs).map Int64.ofInt

def greatestCount : Int := 0xffffffffffffffff

def readCount (cs : List Char) : Except NumeralError Nat :=
  (read 0 greatestCount cs).map Int.toNat

end Numeral
end PCode
