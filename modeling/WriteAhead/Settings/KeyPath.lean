/-
# Key paths

A name from a source may spell a path to a place inside a setting: names after points lead into
tables, and numbers in brackets into lists, counted from the end if they are negative.  A name
that spells no path stands for itself.
-/
import WriteAhead.Number.Decimal
import WriteAhead.Settings.Basic
import WriteAhead.Text.Reader

namespace WriteAhead

open Text

/-- One part of a path after its first name. -/
inductive PathPart where
  | name (name : String)
  | index (index : Int)
deriving DecidableEq, Repr

/-- A path to a place inside a setting. -/
structure KeyPath where
  root : String
  parts : List PathPart
deriving DecidableEq, Repr

namespace KeyPath

/-! ## Reading -/

/-- The character may stand in a name of a path. -/
def isNameChar (c : Char) : Bool := c.isAlphanum || c == '_' || c == '-'

/-- The number fits in a signed word. -/
def isIndex (n : Int) : Bool := -0x8000000000000000 ≤ n && n < 0x8000000000000000

/-- Takes a name of a path. -/
def nameReader : Reader String := String.ofList <$> Reader.run1 isNameChar

/-- Takes a number in brackets. -/
def indexReader : Reader Int := do
  Reader.char '['
  let _ ← Reader.run fun c => c == ' ' || c == '\t'
  let sign ← Reader.optional (Reader.satisfying (· == '-'))
  let digits ← Reader.run1 Char.isDigit
  let _ ← Reader.run fun c => c == ' ' || c == '\t'
  Reader.char ']'
  let n := Decimal.signed sign.isSome (Decimal.digitsValue 10 digits)
  if isIndex n then return n else failure

/-- Takes a part of a path. -/
def partReader : Reader PathPart :=
  (do
    Reader.char '.'
    return .name (← nameReader))
  <|> .index <$> indexReader

/-- Takes a path. -/
def reader : Reader KeyPath := do
  let root ← nameReader
  return ⟨root, ← Reader.many partReader⟩

/-- The path that a name spells, or the name as it is. -/
def ofName (name : String) : KeyPath :=
  (Reader.whole reader name.toList).getD ⟨name, []⟩

end KeyPath

/-! ## Putting a setting at a path -/

namespace Setting

/-- The items of a list; any other setting has none. -/
def items : Setting → List Setting
  | list items _ => items
  | _ => []

/-- The origin of a list; a list that is only made now has none. -/
def listOrigin : Setting → Option Origin
  | list _ origin => origin
  | _ => none

/-- The items with vacant ones added, so that there is one at `index`, and where it is then.
Negative indices count from the end, and what they lack is added in front. -/
def makeRoom (index : Int) (items : List Setting) : List Setting × Nat :=
  if 0 ≤ index then
    (items ++ List.replicate (index.toNat + 1 - items.length) .vacant, index.toNat)
  else
    let missing := index.natAbs - items.length
    (List.replicate missing .vacant ++ items, items.length - index.natAbs)

/-- Lays a setting over what is at a path inside another; what leads there is made if it is not
there. -/
def putAt (above : Setting) : List PathPart → Setting → Setting
  | [], below => overlay below above
  | .name k :: parts, below =>
    .table (Settings.put k (putAt above parts (Settings.get k below.entries)) below.entries)
  | .index i :: parts, below =>
    let (items, place) := makeRoom i below.items
    .list (items.modify place (putAt above parts)) below.listOrigin

end Setting

namespace Settings

/-- The settings with one laid over what is at the path that a name spells. -/
def add (s : Settings) (name : String) (value : Setting) : Settings :=
  let path := KeyPath.ofName name
  s.put path.root (Setting.putAt value path.parts (s.get path.root))

/-- The settings with a source laid over them. -/
def addAll (s : Settings) (source : List (String × Setting)) : Settings :=
  source.foldl (fun s e => s.add e.1 e.2) s

end Settings

end WriteAhead
