/-
# Resolving paths

Follows a path from a working directory, as a POSIX system does: name by name, through symbolic
links, with a bound on how many links one path may pass.  What happens at the last name depends
on what the path is wanted for.
-/
import WriteAhead.FileTree.Basic
import WriteAhead.Errno

namespace WriteAhead

namespace FileTree

/-- The longest path that the system takes, in bytes. -/
def pathLimit : Nat := 4095

/-- The longest name, in bytes. -/
def nameLimit : Nat := 255

/-- The number of symbolic links that one path may pass. -/
def linkLimit : Nat := 40

/-- What a path is wanted for, which decides how its last name is treated. -/
inductive Purpose where
  /-- To open what is there; a last link is followed. -/
  | visit
  /-- To open a file, made if absent; a last link is followed, and a name that claims to be a
  directory is refused. -/
  | make
  /-- To look at the entry itself; a last link is followed only if the path claims that it is a
  directory. -/
  | inspect
  /-- To remove the entry itself; a last link is never followed. -/
  | remove
deriving DecidableEq

/-- A last link is followed, when the path ends in a separator or when it does not. -/
def Purpose.followsLast : Purpose → (endsInSeparator : Bool) → Bool
  | visit, _ => true
  | make, _ => true
  | inspect, s => s
  | remove, _ => false

/-- What a path leads to. -/
inductive Found where
  /-- A directory that the path reaches without naming it, as `/`, `.` and `..` do. -/
  | unnamed (at_ : Location)
  /-- An entry with a name in a directory. -/
  | entry (directory : Location) (name : Name) (entry : Entry) (endsInSeparator : Bool)
  /-- A name that a directory does not have. -/
  | absent (directory : Location) (name : Name) (endsInSeparator : Bool)
deriving DecidableEq

/-- Where a walk without links stops. -/
inductive Stop where
  | found (found : Found)
  | failed (code : Int)
  /-- A link in `directory`, with the names still to be walked after its target. -/
  | link (directory : Location) (target : Path) (rest : List Name)
deriving DecidableEq

/-- Walks along names from a directory up to the first link that is to be followed. -/
def walk (t : FileTree) (purpose : Purpose) (ends : Bool) : Location → List Name → Stop
  | dir, [] => .found (.unnamed dir)
  | dir, n :: rest =>
    if n = [Path.dot] then walk t purpose ends dir rest
    else if n = [Path.dot, Path.dot] then walk t purpose ends dir.tail rest
    -- refused before anything is looked up, so whether or not the name is there
    else if rest = [] ∧ purpose = .make ∧ ends then .failed Errno.isDirectory
    else if nameLimit < n.length then .failed Errno.nameTooLong
    else
      match t.find (n :: dir) with
      | none => if rest = [] then .found (.absent dir n ends) else .failed Errno.noEntry
      | some .directory =>
        if rest = [] then .found (.entry dir n .directory ends)
        else walk t purpose ends (n :: dir) rest
      | some (.file id) =>
        if rest = [] then .found (.entry dir n (.file id) ends) else .failed Errno.notDirectory
      | some (.link target) =>
        -- a link on the way is followed, whatever the path is wanted for
        if rest = [] ∧ purpose.followsLast ends = false then
          .found (.entry dir n (.link target) ends)
        else .link dir target rest

/-- The directory that a path starts from. -/
def startOf (p : Path) (dir : Location) : Location :=
  if p.isAbsolute then [] else dir

/-- Walks along names and through at most `budget` links. -/
def follow (t : FileTree) (purpose : Purpose) :
    (budget : Nat) → (ends : Bool) → Location → List Name → Except Int Found
  | budget, ends, dir, names =>
    match walk t purpose ends dir names with
    | .found f => .ok f
    | .failed code => .error code
    | .link at_ target rest =>
      match budget with
      | 0 => .error Errno.tooManyLinks
      | budget + 1 =>
        -- a relative target starts from the directory that the link lies in
        follow t purpose budget (ends || (rest = [] && target.endsInSeparator))
          (startOf target at_) (target.names ++ rest)

/-- What a path leads to from a working directory. -/
def resolve (t : FileTree) (purpose : Purpose) (cwd : Location) (p : Path) : Except Int Found :=
  if p.bytes = [] then .error Errno.noEntry
  else if pathLimit < p.bytes.length then .error Errno.nameTooLong
  else t.follow purpose linkLimit p.endsInSeparator (startOf p cwd) p.names

end FileTree

end WriteAhead
