import PCode.Text.Replace
/-!
Message templates: placeholders in braces, each a field and perhaps a format after a colon.
Positional placeholders are renamed, so that every argument of a message has a name.
-/

namespace PCode.ErrorType.Template

def placeholder (name : List Char) : List Char := '\x7b' :: name ++ ['\x7d']

def formatted (name : List Char) : List Char := '\x7b' :: name ++ [':']

def positional (i : Nat) : String := s!"f{i}"

def renameAt (i : Nat) (template : List Char) : List Char :=
  let digits := Nat.toDigits 10 i
  Text.replace (formatted digits) (formatted ('f' :: digits))
    (Text.replace (placeholder digits) (placeholder ('f' :: digits)) template)

/-- Renames the placeholders of all positions below `count`, from the last to the first. -/
def rename : Nat → List Char → List Char
  | 0, template => template
  | count + 1, template => rename count (renameAt count template)

def mentions (template : List Char) (name : String) : Bool :=
  Text.occurs (placeholder name.toList) template || Text.occurs (formatted name.toList) template

end PCode.ErrorType.Template
