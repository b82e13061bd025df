/-
# Strings

The four forms of a TOML string: basic strings, in which a backslash starts an escape, and literal
strings, in which every character stands for itself; each within a line, or over several lines
between three quotes.
-/
import WriteAhead.Number.Decimal
import WriteAhead.Text.Quoted
import WriteAhead.Toml.Space

namespace WriteAhead.Toml

open Text

/-! ## Escapes -/

/-- The character is a hexadecimal digit. -/
def isHexDigit (c : Char) : Bool :=
  c.isDigit || ('a' ≤ c && c ≤ 'f') || ('A' ≤ c && c ≤ 'F')

/-- The character with a code point, unless it is none. -/
def charOfCode (n : Nat) : Option Char :=
  if n.isValidChar then some (Char.ofNat n) else none

/-- Takes the `count` hexadecimal digits of a code point. -/
def codePoint (count : Nat) : Reader Char := do
  let digits ← Reader.exactly isHexDigit count
  (charOfCode (Decimal.digitsValue 16 digits) : Option Char)

/-- Takes what follows the backslash of an escape. -/
def escapeTail : Reader Char := do
  match ← Reader.satisfying fun _ => true with
  | 'b' => return '\x08'
  | 't' => return '\t'
  | 'n' => return '\n'
  | 'f' => return '\x0c'
  | 'r' => return '\r'
  | 'e' => return '\x1b'
  | 'x' => codePoint 2
  | 'u' => codePoint 4
  | 'U' => codePoint 8
  | c => if c = doubleQuote ∨ c = backslash then return c else failure

/-- Takes an escape. -/
def escape : Reader Char := do
  Reader.char backslash
  escapeTail

/-! ## Strings within a line -/

/-- The character may stand for itself in a basic string. -/
def isBasicChar (c : Char) : Bool :=
  isCommentChar c && c != doubleQuote && c != backslash

/-- The character may stand in a literal string. -/
def isLiteralChar (c : Char) : Bool := isCommentChar c && c != singleQuote

/-- Takes a basic string within a line. -/
def basicLine : Reader (List Char) := do
  Reader.char doubleQuote
  let pieces ← Reader.many (Reader.run1 isBasicChar <|> ([·]) <$> escape)
  Reader.char doubleQuote
  return pieces.flatten

/-- Takes a literal string within a line. -/
def literalLine : Reader (List Char) := do
  Reader.char singleQuote
  let body ← Reader.run isLiteralChar
  Reader.char singleQuote
  return body

/-- Takes a string within a line, of either form. -/
def lineString : Reader (List Char) := basicLine <|> literalLine

/-! ## Strings over several lines -/

/-- Takes one or two quotes that are followed by no other, which stand for themselves. -/
def innerQuotes (quote : Char) : Reader (List Char) := do
  let quotes ← Reader.run1 (· == quote)
  if quotes.length < 3 then return quotes else failure

/-- Takes the quotes that end a string; of up to five, the last three do. -/
def closingQuotes (quote : Char) : Reader (List Char) := do
  let _ ← Reader.row [quote, quote, quote]
  let first ← Reader.optional (Reader.satisfying (· == quote))
  let second ← Reader.optional (Reader.satisfying (· == quote))
  return first.toList ++ second.toList

/-- Takes a backslash at the end of a line, with all the blank space and line ends after it. -/
def lineContinuation : Reader (List Char) := do
  Reader.char backslash
  blanks
  let _ ← lineEnd
  let _ ← Reader.many ((do let _ ← Reader.run1 isBlank) <|> (do let _ ← lineEnd))
  return []

/-- Takes a string over several lines whose body consists of pieces.  A line end right after the
opening quotes is not part of it. -/
def multilineString (quote : Char) (piece : Reader (List Char)) : Reader (List Char) := do
  let _ ← Reader.row [quote, quote, quote]
  let _ ← Reader.optional lineEnd
  let pieces ← Reader.many (piece <|> lineEnd <|> innerQuotes quote)
  let last ← closingQuotes quote
  return pieces.flatten ++ last

/-- Takes a basic string over several lines. -/
def basicLines : Reader (List Char) :=
  multilineString doubleQuote
    (Reader.run1 isBasicChar <|> lineContinuation <|> ([·]) <$> escape)

/-- Takes a literal string over several lines. -/
def literalLines : Reader (List Char) :=
  multilineString singleQuote (Reader.run1 isLiteralChar)

/-- Takes a string of any form. -/
def anyString : Reader (List Char) := basicLines <|> literalLines <|> lineString

end WriteAhead.Toml
