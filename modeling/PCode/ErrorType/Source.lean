import PCode.ErrorType.Comment
import PCode.ErrorType.Lexeme
/-!
The tokens of a source text.
-/

namespace PCode.ErrorType

/-- A token, and whether punctuation follows it directly. -/
structure Lexed where
  token : Token
  joint : Bool
  deriving DecidableEq

namespace Lexed

def isPunctuation (c : Char) : Bool := c ∈ "~!@#$%^&*-=+|;:,<.>/?\x27".toList

/-- A comment is no punctuation. -/
def startsPunctuation : List Char → Bool
  | '/' :: '/' :: _ => false
  | '/' :: '*' :: _ => false
  | c :: _ => isPunctuation c
  | [] => false

/-- The tokens at the front of a text that starts with `c`, and the number of characters they take.
What only separates tokens is none. -/
def first (c : Char) (cs : List Char) : List Lexed × Nat :=
  if Lexeme.isSeparator c then ([], 1)
  else match Comment.first? (c :: cs) with
    | some (ts, n) => (ts.map (⟨·, false⟩), n)
    | none =>
      let (t, n) := Lexeme.first c cs
      ([⟨t, startsPunctuation (cs.drop (n - 1))⟩], n)

def scan : List Char → List Lexed
  | [] => []
  | c :: cs =>
    let found := first c cs
    found.1 ++ scan (cs.drop (found.2 - 1))
termination_by cs => cs.length
decreasing_by
  rw [List.length_drop, List.length_cons]
  omega

end Lexed

namespace Token

def ofSource (s : String) : List Token := (Lexed.scan s.toList).map Lexed.token

/-- The text of source in pieces, with a space between each two. -/
def joined (pieces : List String) : String := " ".intercalate pieces

def ofPieces (pieces : List String) : List Token := ofSource (joined pieces)

def escape : List Char → List Char
  | [] => []
  | c :: cs =>
    if c = doubleQuote ∨ c = '\\' then '\\' :: c :: escape cs
    else if c = '\r' then '\\' :: 'r' :: escape cs
    else c :: escape cs

def stringSource (value : String) : String :=
  String.ofList (doubleQuote :: escape value.toList ++ [doubleQuote])

end Token
end PCode.ErrorType
