import PCode.ErrorType.Token
import PCode.Text.Blank
/-!
Words, numbers and quoted literals at the front of a text: the token and the number of characters it
takes. A name that follows a literal directly is its suffix.
-/

namespace PCode.ErrorType.Lexeme

open Token (quote doubleQuote)

/-- Direction marks separate tokens as blanks do. -/
def isSeparator (c : Char) : Bool := Text.isBlank c || c == '\u200e' || c == '\u200f'

def isWordStart (c : Char) : Bool :=
  c.isAlpha || c == '_' || (0x80 ≤ c.toNat && !isSeparator c)

def isWordRest (c : Char) : Bool := isWordStart c || c.isDigit

def wordLength (cs : List Char) : Nat := (cs.takeWhile isWordRest).length

def suffixLength (cs : List Char) : Nat := if cs.head?.any isWordStart then wordLength cs else 0

/-! Numbers -/

def isDigitOrGap (c : Char) : Bool := c.isDigit || c == '_'

def digitsLength (cs : List Char) : Nat := (cs.takeWhile isDigitOrGap).length

/-- Length of what follows the letter of an exponent: a sign, if any, and at least one digit. -/
def exponentLength? (cs : List Char) : Option Nat :=
  let gaps := (cs.takeWhile (· = '_')).length
  let start := match cs.drop gaps with
    | '+' :: _ => gaps + 1
    | '-' :: _ => gaps + 1
    | _ => gaps
  let digits := (cs.drop start).takeWhile isDigitOrGap
  if digits.any Char.isDigit then some (start + digits.length) else none

def scaledLength? (n : Nat) (cs : List Char) : Option Nat :=
  match cs.drop n with
  | 'e' :: rest => (exponentLength? rest).map (n + 1 + ·)
  | 'E' :: rest => (exponentLength? rest).map (n + 1 + ·)
  | _ => none

/-- Length of a number with a fraction or an exponent. A point before another point or a name does not
start a fraction. -/
def fractionalLength? (cs : List Char) : Option Nat :=
  let whole := digitsLength cs
  match cs.drop whole with
  | '.' :: rest =>
    if rest.head?.any fun c => c == '.' || isWordStart c then none
    else
      let n := whole + 1 + digitsLength rest
      some ((scaledLength? n cs).getD n)
  | _ => scaledLength? whole cs

def numberLength (cs : List Char) : Nat :=
  match fractionalLength? cs with
  | some n => n + suffixLength (cs.drop n)
  | none => wordLength cs

def digit (c : Char) : Nat :=
  if c.isDigit then c.toNat - '0'.toNat else c.toLower.toNat - 'a'.toNat + 10

/-- The number that digits of a base spell, gaps and other characters left out. -/
def value (base : Nat) (cs : List Char) : Nat :=
  (cs.filter Char.isAlphanum).foldl (fun n c => base * n + digit c) 0

/-- The value of a whole number without a suffix, whose first characters tell the base. -/
def wholeValue : List Char → Nat
  | '0' :: 'x' :: cs => value 16 cs
  | '0' :: 'o' :: cs => value 8 cs
  | '0' :: 'b' :: cs => value 2 cs
  | cs => value 10 cs

/-! Quoted literals -/

/-- Length up to a closing double quote, which a backslash can escape. -/
def quotedLength : List Char → Nat
  | [] => 0
  | [_] => 1
  | c :: d :: cs =>
    if c = doubleQuote then 1
    else if c = '\\' then 2 + quotedLength cs
    else 1 + quotedLength (d :: cs)

def rawLength (hashes : List Char) : List Char → Nat
  | [] => 0
  | c :: cs =>
    if c = doubleQuote ∧ hashes.isPrefixOf cs then 1 + hashes.length
    else 1 + rawLength hashes cs

def characterLength (cs : List Char) : Nat :=
  let opening := if cs.head? = some '\\' then 2 else 1
  opening + ((cs.drop opening).takeWhile (· ≠ quote)).length + 1

def isCharacter (cs : List Char) : Bool :=
  cs.head? = some '\\' || (cs.drop 1).head? = some quote

def isIndent (c : Char) : Bool := c == ' ' || c == '\t' || c == '\n' || c == '\r'

/-- The value of what stands between the quotes of a string literal. -/
def unescape : List Char → List Char
  | [] => []
  | '\\' :: 'x' :: a :: b :: cs => Char.ofNat (value 16 [a, b]) :: unescape cs
  | '\\' :: 'u' :: cs =>
    Char.ofNat (value 16 (cs.takeWhile (· ≠ '\x7d'))) ::
      unescape ((cs.dropWhile (· ≠ '\x7d')).drop 1)
  | '\\' :: '\n' :: cs => unescape (cs.dropWhile isIndent)
  | '\\' :: '\r' :: cs => unescape (cs.dropWhile isIndent)
  | '\\' :: c :: cs =>
    (match c with
      | 'n' => '\n'
      | 'r' => '\r'
      | 't' => '\t'
      | '0' => '\x00'
      | c => c) :: unescape cs
  | '\r' :: '\n' :: cs => '\n' :: unescape cs
  | c :: cs => c :: unescape cs
termination_by cs => cs.length
decreasing_by
  all_goals simp only [List.length_cons, List.length_drop]
  · omega
  · have := (List.dropWhile_sublist (fun c => decide (c ≠ '\x7d')) (l := cs)).length_le
    omega
  · have := (List.dropWhile_sublist isIndent (l := cs)).length_le
    omega
  · have := (List.dropWhile_sublist isIndent (l := cs)).length_le
    omega
  · omega
  · omega
  · omega

/-! Tokens -/

/-- A literal of `length` characters and its suffix, kept as written. -/
def written (cs : List Char) (length : Nat) : Token × Nat :=
  let total := length + suffixLength (cs.drop length)
  (.literal (String.ofList (cs.take total)), total)

/-- A string literal of `length` characters, known by its value without the suffix. -/
def valued (cs : List Char) (length : Nat) (value : List Char) : Token × Nat :=
  (.text (String.ofList value), length + suffixLength (cs.drop length))

/-- The token that starts with a word: a literal with letters in front, a raw identifier, or the word
itself. -/
def ofWord (cs : List Char) : Token × Nat :=
  let n := wordLength cs
  let start := String.ofList (cs.take n)
  let rest := cs.drop n
  let hashes := rest.takeWhile (· = '#')
  if start ∈ ["r", "br", "cr"] ∧ (rest.drop hashes.length).head? = some doubleQuote then
    let inner := rest.drop (hashes.length + 1)
    let length := rawLength hashes inner
    let total := n + hashes.length + 1 + length
    if start = "r" then valued cs total (inner.take (length - hashes.length - 1))
    else written cs total
  else if start ∈ ["b", "c"] ∧ rest.head? = some doubleQuote then
    written cs (n + 1 + quotedLength (rest.drop 1))
  else if start = "b" ∧ rest.head? = some quote then
    written cs (n + 1 + characterLength (rest.drop 1))
  else if start = "r" ∧ rest.head? = some '#' ∧ (rest.drop 1).head?.any isWordStart then
    let total := n + 1 + wordLength (rest.drop 1)
    (.word (String.ofList (cs.take total)), total)
  else (.word start, n)

def first (c : Char) (cs : List Char) : Token × Nat :=
  if isWordStart c then ofWord (c :: cs)
  else if c.isDigit then
    let n := numberLength (c :: cs)
    (.literal (String.ofList ((c :: cs).take n)), n)
  else if c = doubleQuote then
    let n := quotedLength cs
    valued (c :: cs) (n + 1) (unescape (cs.take (n - 1)))
  else if c = quote ∧ isCharacter cs then written (c :: cs) (1 + characterLength cs)
  else (.mark c, 1)

end PCode.ErrorType.Lexeme
