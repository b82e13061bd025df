/-
# Settings from files

Finds the file that a path means, and reads it as a TOML document.  A path means the regular file
there, or else the one whose name has `.toml` added.  Messages name the file by its path from the
working directory.
-/
import WriteAhead.FileTree.Resolve
import WriteAhead.Settings.Basic
import WriteAhead.Toml.Document

namespace WriteAhead

/-! ## Paths of files -/

namespace Path

/-- The path of a location. -/
def ofLocation (l : Location) : Path :=
  ⟨separator :: (l.reverse.intersperse [separator]).flatten⟩

/-- The path, started from the root if it starts from a directory. -/
def absolute (cwd : Location) (p : Path) : Path :=
  if p.isAbsolute then p
  else
    let start := (ofLocation cwd).bytes
    ⟨start ++ (if start.getLast? = some separator then [] else [separator]) ++ p.bytes⟩

/-- The path with bytes added to its last name, if it ends in a name. -/
def extendLast (bytes : Bytes) (p : Path) : Option Path :=
  let body := dropEmpty (p.bytes.drop p.headLength).reverse
  if body = [] ∨ body.takeWhile (· ≠ separator) = [dot, dot] then none
  else some ⟨p.bytes.take p.headLength ++ body.reverse ++ bytes⟩

/-- The names that lead from one row of names to another: up from what the first has alone, and
down along what the second has alone. -/
def namesBetween : List Name → List Name → List Name
  | [], to_ => to_
  | from_, [] => from_.map fun _ => [dot, dot]
  | a :: from_, b :: to_ =>
    if a = b then namesBetween from_ to_
    else (a :: from_).map (fun _ => [dot, dot]) ++ b :: to_

/-- The path of an absolute path from a directory. -/
def relativeTo (cwd : Location) (p : Path) : Path :=
  let names := p.names.filter (· ≠ [dot])
  ⟨((namesBetween cwd.reverse names).intersperse [separator]).flatten⟩

end Path

/-! ## Finding a file -/

namespace FileTree

/-- The regular file that a path leads to. -/
def fileAt? (t : FileTree) (p : Path) : Option FileId :=
  if p.hasZeroByte then none
  else
    match t.resolve .visit [] p with
    | .ok (.entry _ _ (.file id) false) => some id
    | _ => none

/-- What is added to a name that no file has. -/
def settingsSuffix : Bytes := Text.encode ".toml"

/-- The settings file that a path means, by its path from the root, and its content. -/
def settingsFile? (t : FileTree) (cwd : Location) (p : Path) : Option (Path × Bytes) :=
  -- a file of exactly this name comes before one with the suffix
  let exact := p.absolute cwd
  match t.fileAt? exact with
  | some id => some (exact, (t.content id).toBytes)
  | none => do
    let extended ← exact.extendLast settingsSuffix
    let id ← t.fileAt? extended
    return (extended, (t.content id).toBytes)

end FileTree

/-! ## Settings of a document -/

/-- Why a number of a document is no setting. -/
inductive NumberFault where
  | integerTooLarge
  | integerTooSmall
  | decimalTooLarge
deriving DecidableEq, Repr

/-- The text of a number's fault. -/
def NumberFault.message : NumberFault → String
  | integerTooLarge => "number too large to fit in target type"
  | integerTooSmall => "number too small to fit in target type"
  | decimalTooLarge => "floating-point number overflowed"

namespace Toml

/-- The setting that a scalar gives. -/
def Scalar.toSetting : Scalar → Except NumberFault PlainSetting
  | boolean b => .ok (.boolean b)
  | integer n =>
    if 0x8000000000000000 ≤ n then .error .integerTooLarge
    else if n < -0x8000000000000000 then .error .integerTooSmall
    else .ok (.integer n)
  | decimal x => if x.overflows then .error .decimalTooLarge else .ok (.number x.nearest)
  | moment text => .ok (.text text)
  | string text => .ok (.text text)

mutual

/-- The setting that a value gives. -/
def toSetting (origin : Origin) : Node → Except NumberFault Setting
  | .scalar s => do return .plain (← s.toSetting) (some origin)
  | .list items => do return .list (← toSettingList origin items) (some origin)
  | .table _ es => do return .table (← toSettings origin es)
  | .series earlier latest => do
    let items ← toSettingList origin earlier
    return .list (items ++ [.table (← toSettings origin latest)]) (some origin)

/-- The settings that a list of values gives. -/
def toSettingList (origin : Origin) : List Node → Except NumberFault (List Setting)
  | [] => .ok []
  | v :: rest => do return (← toSetting origin v) :: (← toSettingList origin rest)

/-- The settings that named values give. -/
def toSettings (origin : Origin) :
    List (String × Node) → Except NumberFault (List (String × Setting))
  | [] => .ok []
  | (k, v) :: rest => do
    let s ← toSetting origin v
    return (k, s) :: (← toSettings origin rest)

end

end Toml

/-! ## Reading a file -/

/-- Why a file gives no settings. -/
inductive FileFault where
  /-- The text is no document. -/
  | notDocument
  | number (fault : NumberFault)
deriving DecidableEq, Repr

/-- The bytes that may stand in front of a file's text. -/
def byteOrderBytes : Bytes := [0xEF, 0xBB, 0xBF]

/-- The text of a file. -/
def fileText (bytes : Bytes) : String :=
  Text.decode (if byteOrderBytes.isPrefixOf bytes then bytes.drop 3 else bytes)

/-- The settings that a file of a name gives. -/
def Settings.ofFile (name : String) (bytes : Bytes) : Except FileFault Settings :=
  match Toml.readDocument (fileText bytes) with
  | none => .error .notDocument
  | some es => (Toml.toSettings (.file name) es).mapError .number

end WriteAhead
