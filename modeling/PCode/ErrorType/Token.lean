/-!
Tokens of source text. Punctuation and delimiters are tokens of one character each, a lifetime is a
quote and its name, and a string literal is known by its value.
-/

namespace PCode.ErrorType

inductive Token where
  /-- An identifier or keyword. -/
  | word (name : String)
  | mark (c : Char)
  | text (value : String)
  /-- Any other literal, as written. -/
  | literal (source : String)
  deriving DecidableEq

namespace Token

def quote : Char := '\x27'

def doubleQuote : Char := '\x22'

/-- How a token other than a string literal is written. -/
def spelling : Token → String
  | word name => name
  | mark c => c.toString
  | text value => value
  | literal source => source

def isNumber (source : String) : Bool := (source.toList.head?.map Char.isDigit).getD false

def commaSeparated (items : List (List Token)) : List Token := [mark ','].intercalate items

def lifetime (name : String) : List Token := [mark quote, word name]

end Token
end PCode.ErrorType
