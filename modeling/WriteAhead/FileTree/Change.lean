/-
# Opening, unlinking and arranging

What a POSIX system does to the tree when a path is opened, unlinked or looked at, and the plain
changes by which a tree is arranged beforehand or behind a program's back.
-/
import WriteAhead.FileTree.Resolve

namespace WriteAhead

namespace FileTree

/-! ## What programs do -/

/-- What a descriptor can refer to. -/
inductive Target where
  | directory
  | file (id : FileId)
deriving DecidableEq

/-- Opens what is at a path. -/
def openExisting (t : FileTree) (cwd : Location) (p : Path) : Except Int Target :=
  match t.resolve .visit cwd p with
  | .error code => .error code
  | .ok (.unnamed _) => .ok .directory
  | .ok (.absent _ _ _) => .error Errno.noEntry
  | .ok (.entry _ _ .directory _) => .ok .directory
  | .ok (.entry _ _ (.file id) ends) => if ends then .error Errno.notDirectory else .ok (.file id)
  | .ok (.entry _ _ (.link _) _) => .error Errno.tooManyLinks

/-- Opens the file at a path, made empty if nothing is there. -/
def openOrMake (t : FileTree) (cwd : Location) (p : Path) : Except Int (FileId × FileTree) :=
  match t.resolve .make cwd p with
  | .error code => .error code
  | .ok (.unnamed _) => .error Errno.isDirectory
  | .ok (.absent dir name _) =>
    let (t', id) := t.makeFile (name :: dir) Content.empty
    .ok (id, t')
  | .ok (.entry _ _ .directory _) => .error Errno.isDirectory
  | .ok (.entry _ _ (.file id) _) => .ok (id, t)
  | .ok (.entry _ _ (.link _) _) => .error Errno.tooManyLinks

/-- Looks whether a path names an entry, without following a last link. -/
def inspectEntry (t : FileTree) (cwd : Location) (p : Path) : Except Int Unit :=
  match t.resolve .inspect cwd p with
  | .error code => .error code
  | .ok (.absent _ _ _) => .error Errno.noEntry
  -- the path claims that the file is a directory
  | .ok (.entry _ _ (.file _) true) => .error Errno.notDirectory
  | .ok _ => .ok ()

/-- Removes the name of a file or a link. -/
def unlink (t : FileTree) (cwd : Location) (p : Path) : Except Int FileTree :=
  match t.resolve .remove cwd p with
  | .error code => .error code
  | .ok (.unnamed _) => .error Errno.isDirectory
  | .ok (.absent _ _ _) => .error Errno.noEntry
  | .ok (.entry _ _ .directory _) => .error Errno.isDirectory
  | .ok (.entry dir name _ ends) =>
    if ends then .error Errno.notDirectory else .ok (t.erase (name :: dir))

/-- The content of the regular file at a path, if there is one. -/
def readFile? (t : FileTree) (cwd : Location) (p : Path) : Option Content :=
  match t.openExisting cwd p with
  | .ok (.file id) => some (t.content id)
  | _ => none

/-! ## Arranging a tree -/

/-- The tree with a file at a path that holds exactly `bytes`; an existing file keeps its number. -/
def arrangeFile (t : FileTree) (cwd : Location) (p : Path) (bytes : Bytes) : Option FileTree :=
  match t.openOrMake cwd p with
  | .ok (id, t') => some (t'.setContent id (Content.ofBytes bytes))
  | .error _ => none

/-- The tree with directories along names, made where nothing is. -/
def arrangeNames (t : FileTree) (dir : Location) : List Name → Option FileTree
  | [] => some t
  | n :: rest =>
    if n = [Path.dot] then arrangeNames t dir rest
    else if n = [Path.dot, Path.dot] then arrangeNames t dir.tail rest
    else
      match t.find (n :: dir) with
      | none => arrangeNames (t.insert (n :: dir) .directory) (n :: dir) rest
      | some .directory => arrangeNames t (n :: dir) rest
      | some _ => none

/-- The tree with a directory at a path, and directories on the way to it. -/
def arrangeDirectory (t : FileTree) (cwd : Location) (p : Path) : Option FileTree :=
  arrangeNames t (startOf p cwd) p.names

/-- The tree with a link at a path where nothing was. -/
def arrangeLink (t : FileTree) (cwd : Location) (target p : Path) : Option FileTree :=
  match t.resolve .remove cwd p with
  | .ok (.absent dir name _) => some (t.insert (name :: dir) (.link target))
  | _ => none

/-- The records that lie at or below a location. -/
def isWithin (l k : Location) : Bool := l.isSuffixOf k

/-- The tree without an entry and all that lies below it. -/
def eraseAll (t : FileTree) (l : Location) : FileTree :=
  { t with entries := t.entries.filter fun x => !isWithin l x.1 }

/-- The tree without whatever is at a path. -/
def arrangeRemoval (t : FileTree) (cwd : Location) (p : Path) : Option FileTree :=
  match t.resolve .remove cwd p with
  | .ok (.entry dir name _ _) => some (t.eraseAll (name :: dir))
  | _ => none

/-- A location below `source` moved to below `target`. -/
def moved (source target l : Location) : Location :=
  if isWithin source l then l.take (l.length - source.length) ++ target else l

/-- The tree with whatever is at one path moved to another, and what was there removed. -/
def arrangeMove (t : FileTree) (cwd : Location) (p q : Path) : Option FileTree :=
  match t.resolve .remove cwd p, t.resolve .remove cwd q with
  | .ok (.entry dir name _ _), .ok (.absent dir' name' _) =>
    some { t with entries := t.entries.map fun x =>
      (moved (name :: dir) (name' :: dir') x.1, x.2) }
  | .ok (.entry dir name _ _), .ok (.entry dir' name' _ _) =>
    if name :: dir = name' :: dir' then some t
    else
      some { (t.eraseAll (name' :: dir')) with
        entries := (t.eraseAll (name' :: dir')).entries.map fun x =>
          (moved (name :: dir) (name' :: dir') x.1, x.2) }
  | _, _ => none

end FileTree

end WriteAhead
