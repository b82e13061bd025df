/-
# Quoted text

A text in double quotes, with escapes for what would not survive there: the quote and the
backslash, the common controls by letter, and every character that does not print as itself by
its code point.
-/
import WriteAhead.Text.Lowercase
import WriteAhead.Text.Utf8

namespace WriteAhead.Text

/-- The character that starts an escape. -/
def backslash : Char := '\x5c'

/-- The character that encloses a quoted text. -/
def doubleQuote : Char := '\x22'

/-- The other quote, which is escaped where both are. -/
def singleQuote : Char := '\x27'

/-- A hexadecimal digit, in lower case. -/
def hexDigit (n : Nat) : Char :=
  if n < 10 then Char.ofNat (48 + n) else Char.ofNat (87 + n)

/-- The hexadecimal digits of a number, without leading zeros, put before `tail`. -/
def hexDigits (n : Nat) (tail : List Char) : List Char :=
  if n < 16 then hexDigit n :: tail else hexDigits (n / 16) (hexDigit (n % 16) :: tail)

/-- The escape of a character by its code point. -/
def codeEscape (c : Char) : List Char :=
  backslash :: 'u' :: '\x7b' :: hexDigits c.toNat ['\x7d']

/-- A character as it stands between quotes; `single` says that a single quote is escaped too. -/
def escaped (single : Bool) (c : Char) : List Char :=
  if c = '\x00' then [backslash, '0']
  else if c = '\t' then [backslash, 't']
  else if c = '\r' then [backslash, 'r']
  else if c = '\n' then [backslash, 'n']
  else if c = backslash ∨ c = doubleQuote then [backslash, c]
  else if single && c == singleQuote then [backslash, c]
  else if isExtending c || !isPrinted c then codeEscape c
  else [c]

/-- A text in quotes. -/
def quoted (s : String) : String :=
  String.ofList (doubleQuote :: s.toList.flatMap (escaped false) ++ [doubleQuote])

/-- The escape of a byte that belongs to no character. -/
def byteEscape (b : UInt8) : List Char :=
  [backslash, 'x', (hexDigit (b.toNat / 16)).toUpper, (hexDigit (b.toNat % 16)).toUpper]

/-- A piece of a byte row as it stands between quotes. -/
def Piece.escaped : Piece → List Char
  | char c _ => Text.escaped true c
  | broken source => source.flatMap byteEscape

/-- A row of bytes in quotes, read as text as far as it is text. -/
def quotedBytes (bytes : Bytes) : String :=
  String.ofList (doubleQuote :: (scan bytes).flatMap Piece.escaped ++ [doubleQuote])

end WriteAhead.Text
