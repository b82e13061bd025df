/-
# Documents

A TOML document is a list of statements, one on a line, with gaps between them.  Its tree is made
by carrying out the statements in order; a statement that contradicts an earlier one is refused,
and the document with it.
-/
import WriteAhead.Text.Utf8
import WriteAhead.Toml.Statement

namespace WriteAhead.Toml

open Text

/-! ## The statements of a document -/

/-- The character that may stand in front of a document without meaning anything. -/
def byteOrderMark : Char := '\uFEFF'

/-- Takes a statement with the rest of its line and the gap after it. -/
def statementLine : Reader Statement := do
  let s ← statement
  lineRest
  gap
  return s

/-- Takes the statements of a document. -/
def statements : Reader (List Statement) := do
  let _ ← Reader.optional (Reader.char byteOrderMark)
  gap
  Reader.many statementLine

/-! ## The tree of a document -/

/-- A document that statements are still added to. -/
structure Draft where
  root : Entries
  /-- The path of the table that assignments belong to. -/
  current : List String

/-- The draft after a statement. -/
def Draft.add (d : Draft) : Statement → Option Draft
  | .header k => do
    return ⟨← alterAt false (openIn k.name) k.path .headed d.root, k.path ++ [k.name]⟩
  | .seriesHeader k => do
    return ⟨← alterAt false (extendIn k.name) k.path .headed d.root, k.path ++ [k.name]⟩
  | .assignment k v => do
    return { d with
      root := ← alterAt false (assign k.path k.name v) d.current .headed d.root }

/-- The entries that statements make. -/
def entriesOfStatements (ss : List Statement) : Option Entries :=
  (ss.foldlM Draft.add ⟨[], []⟩).map Draft.root

/-- The entries of the document that a text spells, if it spells one. -/
def readDocument (text : String) : Option Entries := do
  let ss ← Reader.whole statements text.toList
  entriesOfStatements ss

end WriteAhead.Toml
