/-
# Paths

A path is a row of bytes.  Separators part its components; repeated separators and single dots
(except a leading one) add nothing to it.  `Path.parent` cuts the last component off the text as
it was written, and `Path.directory` turns that into a path that can always be opened.

* `directory_ne_empty` : the directory of any path is a non-empty path.
-/
import WriteAhead.Text.Utf8

namespace WriteAhead

/-- One component of a path. -/
abbrev Name : Type := Bytes

/-- A path, as the bytes that spell it. -/
structure Path where
  bytes : Bytes
deriving DecidableEq

namespace Path

/-- The byte that parts two components. -/
def separator : UInt8 := 0x2F

/-- The byte of which the names `.` and `..` consist. -/
def dot : UInt8 := 0x2E

/-- The path that a text spells. -/
def ofString (text : String) : Path := ⟨Text.encode text⟩

/-- The text shown for a path. -/
def toText (p : Path) : String := Text.decode p.bytes

/-- The empty path. -/
def empty : Path := ⟨[]⟩

/-- The path of the working directory. -/
def here : Path := ⟨[dot]⟩

/-- The path starts at the root. -/
def isAbsolute (p : Path) : Bool := p.bytes.head? == some separator

/-- The path ends in a separator. -/
def endsInSeparator (p : Path) : Bool := p.bytes.getLast? == some separator

/-- The path holds a zero byte. -/
def hasZeroByte (p : Path) : Bool := p.bytes.contains 0

/-! ## Components -/

/-- The stretches between separators, empty ones included. -/
def segments : Bytes → List Name
  | [] => [[]]
  | b :: rest =>
    if b = separator then [] :: segments rest
    else
      match segments rest with
      | [] => [[b]]
      | s :: more => (b :: s) :: more

/-- The names that a path is walked by, from the first to the last. -/
def names (p : Path) : List Name :=
  (segments p.bytes).filter (· ≠ [])

/-! ## The parent of a path -/

/-- The length of what no cut removes: a root separator, or a dot that is the first component. -/
def headLength (p : Path) : Nat :=
  match p.bytes with
  | [] => 0
  | b :: rest =>
    if b = separator then 1
    else if b = dot ∧ (rest = [] ∨ rest.head? = some separator) then 1
    else 0

/-- Drops trailing separators and trailing single dots; bytes are given last first. -/
def dropEmpty : Bytes → Bytes
  | [] => []
  | b :: rest =>
    if b = separator then dropEmpty rest
    else if b = dot then
      match rest with
      | [] => []
      -- bytes come last first, so `c` is what stands before the dot
      | c :: more => if c = separator then dropEmpty more else b :: c :: more
    else b :: rest

/-- What is left of a body, given last byte first, when its last component is cut off. -/
def cutLast (body : Bytes) : Bytes :=
  dropEmpty ((body.dropWhile (· ≠ separator)).drop 1)

/-- The path without its last component, or nothing for the root and the empty path. -/
def parent (p : Path) : Option Path :=
  let head := p.bytes.take p.headLength
  match dropEmpty (p.bytes.drop p.headLength).reverse with
  -- nothing is left but the head, which only a dot can be cut from
  | [] => if head = [dot] then some empty else none
  | body => some ⟨head ++ (cutLast body).reverse⟩

/-- The directory that holds what a path names: the parent, or the working directory where that
has no text. -/
def directory (p : Path) : Path :=
  match p.parent with
  | some d => if d = empty then here else d
  | none => here

theorem directory_ne_empty (p : Path) : p.directory ≠ empty := by
  unfold directory
  split
  · split
    · decide
    · assumption
  · decide

end Path

end WriteAhead
