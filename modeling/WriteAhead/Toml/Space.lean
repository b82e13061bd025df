/-
# Blanks, comments and line ends

What may stand between the parts of a TOML document without meaning anything.
-/
import WriteAhead.Text.Reader

namespace WriteAhead.Toml

open Text

/-- The character is blank space within a line. -/
def isBlank (c : Char) : Bool := c == ' ' || c == '\t'

/-- The character may stand in a comment: any but the controls, of which the tab is allowed. -/
def isCommentChar (c : Char) : Bool := c == '\t' || (' ' ≤ c && c != '\x7f')

/-- Skips blank space within a line. -/
def blanks : Reader Unit := do
  let _ ← Reader.run isBlank

/-- Takes a line end: a line feed, or a carriage return with one. -/
def lineEnd : Reader (List Char) :=
  Reader.row ['\n'] <|> Reader.row ['\r', '\n']

/-- Skips a comment up to the end of its line. -/
def comment : Reader Unit := do
  Reader.char '#'
  let _ ← Reader.run isCommentChar

/-- Skips one piece of what stands between the parts of a document: blanks, a line end, or a
comment. -/
def gapPiece : Reader Unit :=
  (do let _ ← Reader.run1 isBlank) <|> (do let _ ← lineEnd) <|> comment

/-- Skips blanks, line ends and comments. -/
def gap : Reader Unit := do
  let _ ← Reader.many gapPiece

/-- Skips what may follow a statement in its line, and the end of the line or of the document. -/
def lineRest : Reader Unit := do
  blanks
  let _ ← Reader.optional comment
  Reader.finished <|> (do let _ ← lineEnd)

end WriteAhead.Toml
