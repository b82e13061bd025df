/-
# The tree of a document

The values of a TOML document under their names.  A table remembers how it was made, because that
decides who may still add to it: nobody to an inline table, only other dotted keys to a table made
by dotted keys, and a header once to a table that was only implied by another header.
-/
import WriteAhead.Toml.Scalar

namespace WriteAhead.Toml

/-- How a table was made. -/
inductive TableKind where
  /-- By a header, or the table of the whole document. -/
  | headed
  /-- By a longer header, which passes through it. -/
  | implied
  /-- By a dotted key, which passes through it. -/
  | dotted
  /-- In braces, with all that it will ever hold. -/
  | inline
deriving DecidableEq, Repr

/-- A value of a document. -/
inductive Node where
  | scalar (value : Scalar)
  | list (items : List Node)
  | table (kind : TableKind) (entries : List (String × Node))
  /-- Tables that share a header in double brackets; the latest can still be added to. -/
  | series (earlier : List Node) (latest : List (String × Node))

/-- Values by name, in the order of the names. -/
abbrev Entries : Type := List (String × Node)

namespace Entries

/-- The value under a name. -/
def find? (name : String) : Entries → Option Node
  | [] => none
  | (k, v) :: rest => if k = name then some v else find? name rest

/-- The entries with a value put under a name. -/
def put (name : String) (value : Node) : Entries → Entries
  | [] => [(name, value)]
  | (k, v) :: rest =>
    if k = name then (name, value) :: rest
    else if name < k then (name, value) :: (k, v) :: rest
    else (k, v) :: put name value rest

end Entries

/-! ## Changing the table at a path -/

/-- Changes the table at a path below a table of a kind, making the tables that the path passes
through.  A path of a dotted key cannot pass through a table that a header made. -/
def alterAt (isDotted : Bool) (change : TableKind → Entries → Option Entries) :
    List String → TableKind → Entries → Option Entries
  | [], kind, es => change kind es
  | k :: path, _, es =>
    match es.find? k with
    | none => do
      -- what the path passes through remembers which kind of path made it
      let made := if isDotted then TableKind.dotted else .implied
      let inner ← alterAt isDotted change path made []
      return es.put k (.table made inner)
    | some (.table kind inner) =>
      if kind = .inline ∨ (isDotted ∧ kind = .headed) then none
      else do
        let inner' ← alterAt isDotted change path kind inner
        return es.put k (.table kind inner')
    | some (.series earlier latest) => do
      -- a path through a series goes on in the latest of its tables
      let latest' ← alterAt isDotted change path .headed latest
      return es.put k (.series earlier latest')
    | some (.scalar _) | some (.list _) => none

/-- Gives a value to a key of the table at the end of a dotted key's path.  Such a table is made by
dotted keys alone. -/
def assignIn (key : String) (value : Node) (isLong : Bool) (kind : TableKind) (es : Entries) :
    Option Entries :=
  if (isLong ∧ kind ≠ .dotted) ∨ (es.find? key).isSome then none else some (es.put key value)

/-- Gives a value to a dotted key, from a table on. -/
def assign (path : List String) (key : String) (value : Node) :
    TableKind → Entries → Option Entries :=
  alterAt true (assignIn key value (!path.isEmpty)) path

/-- Makes the table that a header names, in the table around it. -/
def openIn (key : String) (_kind : TableKind) (es : Entries) : Option Entries :=
  match es.find? key with
  | none => some (es.put key (.table .headed []))
  | some (.table .implied inner) => some (es.put key (.table .headed inner))
  | some _ => none

/-- Makes the next table of the series that a header in double brackets names. -/
def extendIn (key : String) (_kind : TableKind) (es : Entries) : Option Entries :=
  match es.find? key with
  | none => some (es.put key (.series [] []))
  | some (.series earlier latest) =>
    some (es.put key (.series (earlier ++ [.table .headed latest]) []))
  | some _ => none

end WriteAhead.Toml
