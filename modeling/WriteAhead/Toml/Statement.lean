/-
# Statements

The lines of a TOML document that state something: headers, headers in double brackets, and
assignments of values to keys.  Values may contain others, up to a limit of nesting.
-/
import WriteAhead.Toml.Tree

namespace WriteAhead.Toml

open Text

/-- The greatest depth of values within values, and of names before the last one of a key. -/
def nestingLimit : Nat := 80

/-! ## Keys -/

/-- A key: the names of the tables that it passes through, and the name in the last of them. -/
structure Key where
  path : List String
  name : String
deriving DecidableEq, Repr

/-- The character may stand in a name without quotes. -/
def isNameChar (c : Char) : Bool := c.isAlphanum || c == '_' || c == '-'

/-- Takes one name, in quotes or without. -/
def name : Reader String :=
  String.ofList <$> (Reader.run1 isNameChar <|> lineString)

/-- Takes a further name of a key, after its point. -/
def furtherName : Reader String := do
  blanks
  Reader.char '.'
  blanks
  name

/-- Takes a key. -/
def key : Reader Key := do
  let names := (← name) :: (← Reader.many furtherName)
  match names.getLast? with
  | some last =>
    if names.length ≤ nestingLimit + 1 then return ⟨names.dropLast, last⟩ else failure
  | none => failure

/-! ## Values -/

/-- Takes items that commas part, up to a closing mark; a comma may follow the last item, and
gaps may stand anywhere between. -/
def itemsUpTo {α : Type} (close : Char) (item : Reader α) : Reader (List α) := do
  gap
  let first ← Reader.optional (do
    let a ← item
    gap
    return a)
  match first with
  | none =>
    Reader.char close
    return []
  | some a =>
    let more ← Reader.many (do
      Reader.char ','
      gap
      let b ← item
      gap
      return b)
    let _ ← Reader.optional (do
      Reader.char ','
      gap)
    Reader.char close
    return a :: more

/-- Takes an array of values. -/
def array (value : Reader Node) : Reader Node := do
  Reader.char '['
  return .list (← itemsUpTo ']' value)

/-- Takes a key and its value. -/
def assignment (value : Reader Node) : Reader (Key × Node) := do
  let k ← key
  blanks
  Reader.char '='
  blanks
  return (k, ← value)

/-- The entries that assignments make of none, unless they contradict each other. -/
def entriesOf (assignments : List (Key × Node)) : Option Entries :=
  assignments.foldlM (fun es a => assign a.1.path a.1.name a.2 .inline es) []

/-- Takes a table in braces. -/
def inlineTable (value : Reader Node) : Reader Node := do
  Reader.char '\x7b'
  let assignments ← itemsUpTo '\x7d' (assignment value)
  return .table .inline (← (entriesOf assignments : Option Entries))

/-- Takes a value that contains others to a depth of at most `depth`. -/
def valueWithin : (depth : Nat) → Reader Node
  | 0 => .scalar <$> scalar
  | depth + 1 =>
    array (valueWithin depth) <|> inlineTable (valueWithin depth) <|> .scalar <$> scalar

/-- Takes a value. -/
def value : Reader Node := valueWithin nestingLimit

/-! ## Statements -/

/-- What a line of a document states. -/
inductive Statement where
  /-- The table that the following assignments belong to. -/
  | header (key : Key)
  /-- The next table of a series, to which the following assignments belong. -/
  | seriesHeader (key : Key)
  | assignment (key : Key) (value : Node)

/-- Takes a key between marks. -/
def enclosedKey (opening closing : List Char) : Reader Key := do
  let _ ← Reader.row opening
  blanks
  let k ← key
  blanks
  let _ ← Reader.row closing
  return k

/-- Takes a statement. -/
def statement : Reader Statement :=
  .seriesHeader <$> enclosedKey ['[', '['] [']', ']']
    <|> .header <$> enclosedKey ['['] [']']
    <|> (fun a => .assignment a.1 a.2) <$> assignment value

end WriteAhead.Toml
