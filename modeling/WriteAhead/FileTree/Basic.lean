/-
# The file tree

Directories, symbolic links and names of regular files, each at a `Location`.  Names refer to
files by number, and contents are kept by number, so a file that lost its name can still be read
and written by whoever has it open.

* `find_insert`, `find_erase` : the entry at each location after a change;
* `content_setContent` : the content of each file after a change.
-/
import WriteAhead.Path

namespace WriteAhead

/-- Where an entry is: its name, then the names of the directories around it, outwards. -/
abbrev Location : Type := List Name

/-- The number of a regular file. -/
abbrev FileId : Type := Nat

/-- What a location can hold. -/
inductive Entry where
  | directory
  | link (target : Path)
  | file (id : FileId)
deriving DecidableEq

/-- Entries by location, contents by file number. -/
structure FileTree where
  /-- The entries below the root, at most one for a location. -/
  entries : List (Location × Entry)
  /-- The content of each file. -/
  content : FileId → Content
  /-- The number of the next file to be made. -/
  nextFile : FileId

namespace FileTree

/-- The tree that holds nothing but its root. -/
def empty : FileTree := ⟨[], fun _ => Content.empty, 0⟩

/-! ## Looking up -/

/-- The entry that a list records for a location. -/
def findIn (l : Location) : List (Location × Entry) → Option Entry
  | [] => none
  | (k, e) :: rest => if k = l then some e else findIn l rest

/-- The entry at a location; the root is a directory. -/
def find (t : FileTree) (l : Location) : Option Entry :=
  if l = [] then some .directory else findIn l t.entries

@[simp] theorem find_root (t : FileTree) : t.find [] = some .directory := by
  simp [find]

theorem find_eq_findIn (t : FileTree) {l : Location} (h : l ≠ []) :
    t.find l = findIn l t.entries := by
  simp [find, h]

/-! ## Changing -/

/-- The list without its records for a location. -/
def eraseIn (l : Location) : List (Location × Entry) → List (Location × Entry)
  | [] => []
  | (k, e) :: rest => if k = l then eraseIn l rest else (k, e) :: eraseIn l rest

/-- The tree without the entry at a location. -/
def erase (t : FileTree) (l : Location) : FileTree :=
  { t with entries := eraseIn l t.entries }

/-- The tree with `e` at a location. -/
def insert (t : FileTree) (l : Location) (e : Entry) : FileTree :=
  { t with entries := (t.erase l).entries ++ [(l, e)] }

/-- The tree with the content of one file replaced. -/
def setContent (t : FileTree) (id : FileId) (c : Content) : FileTree :=
  { t with content := fun k => if k = id then c else t.content k }

/-- The tree with a new file at a location, and the number of the file. -/
def makeFile (t : FileTree) (l : Location) (c : Content) : FileTree × FileId :=
  let t' := (t.setContent t.nextFile c).insert l (.file t.nextFile)
  ({ t' with nextFile := t.nextFile + 1 }, t.nextFile)

theorem findIn_eraseIn (l k : Location) (es : List (Location × Entry)) :
    findIn k (eraseIn l es) = if k = l then none else findIn k es := by
  induction es with
  | nil => simp [eraseIn, findIn]
  | cons x rest ih =>
    obtain ⟨m, e⟩ := x
    by_cases hk : k = l
    · subst hk
      by_cases hm : m = k <;> simp_all [eraseIn, findIn]
    · by_cases hm : m = l
      · have hmk : ¬ m = k := fun h => hk (h ▸ hm)
        have hlk : ¬ l = k := fun h => hk h.symm
        simp_all [eraseIn, findIn]
      · simp_all [eraseIn, findIn]

theorem findIn_append_single (l k : Location) (e : Entry) (es : List (Location × Entry)) :
    findIn k (es ++ [(l, e)]) = (findIn k es).or (if k = l then some e else none) := by
  induction es with
  | nil =>
    by_cases h : k = l
    · simp [findIn, h]
    · have hlk : ¬ l = k := fun h' => h h'.symm
      simp [findIn, h, hlk]
  | cons x rest ih =>
    obtain ⟨m, f⟩ := x
    by_cases h : m = k <;> simp [findIn, h, ih]

theorem find_erase (t : FileTree) (l k : Location) (h : k ≠ []) :
    (t.erase l).find k = if k = l then none else t.find k := by
  simp only [find, h, if_false, erase]
  exact findIn_eraseIn l k t.entries

theorem find_insert (t : FileTree) (l k : Location) (e : Entry) (h : k ≠ []) :
    (t.insert l e).find k = if k = l then some e else t.find k := by
  simp only [find, h, if_false, insert, findIn_append_single, erase]
  rw [findIn_eraseIn]
  by_cases hk : k = l <;> simp [hk]

theorem content_setContent (t : FileTree) (id k : FileId) (c : Content) :
    (t.setContent id c).content k = if k = id then c else t.content k := rfl

@[simp] theorem find_setContent (t : FileTree) (id : FileId) (c : Content) (l : Location) :
    (t.setContent id c).find l = t.find l := rfl

@[simp] theorem content_erase (t : FileTree) (l : Location) (k : FileId) :
    (t.erase l).content k = t.content k := rfl

@[simp] theorem content_insert (t : FileTree) (l : Location) (e : Entry) (k : FileId) :
    (t.insert l e).content k = t.content k := rfl

/-! ## Listing -/

/-- What a listing shows of an entry. -/
inductive Listed where
  | directory
  | link (target : Path)
  | file (content : Content)

/-- What a listing shows of an entry of this tree. -/
def listed (t : FileTree) : Entry → Listed
  | .directory => .directory
  | .link target => .link target
  | .file id => .file (t.content id)

/-- The path from a directory above to a location. -/
def pathFrom (above l : Location) : Option Path :=
  if above.isSuffixOf l ∧ l ≠ above then
    let names := (l.take (l.length - above.length)).reverse
    some ⟨(names.intersperse [Path.separator]).flatten⟩
  else none

/-- Everything below a directory, by its path from there. -/
def below (t : FileTree) (above : Location) : List (Path × Listed) :=
  t.entries.filterMap fun x => (pathFrom above x.1).map fun p => (p, t.listed x.2)

end FileTree

end WriteAhead
