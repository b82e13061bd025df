/-
# The machine

A file tree, a working directory and a table of open descriptors, with the effect that each
system call has on them.  A `Verdict` says what happens to a call besides: it may fail, transfer
less than it was asked to, or see a file system of another type.
-/
import WriteAhead.System.Call
import WriteAhead.FileTree.Change

namespace WriteAhead

/-- What the surroundings decide about one call. -/
inductive Verdict where
  /-- The call does what it does. -/
  | proceed
  /-- The call fails with a code and does nothing; a close closes all the same. -/
  | fail (code : Int)
  /-- The file system has this type. -/
  | fileSystem (word : UInt64)
  /-- A transfer moves at most so many bytes. -/
  | atMost (count : Nat)
  /-- An allocation leaves the file at least so long. -/
  | extendTo (length : Nat)
deriving DecidableEq

namespace Verdict

/-- The number of bytes that a transfer of `count` may move. -/
def limit : Verdict → (count : Nat) → Nat
  | .atMost n, count => min n count
  | _, count => count

/-- The type of file system that a verdict shows, which is a local one by default. -/
def fileSystemWord : Verdict → UInt64
  | .fileSystem w => w
  | _ => 0xEF53

/-- The length that a verdict extends an allocated file to at least. -/
def leastLength : Verdict → Nat
  | .extendTo n => n
  | _ => 0

end Verdict

/-- What is open under a descriptor. -/
structure OpenFile where
  /-- Opened for writing, and otherwise for reading. -/
  writable : Bool
  target : FileTree.Target
deriving DecidableEq

/-- A POSIX system as its calls see it. -/
structure Machine where
  tree : FileTree
  workingDirectory : Location
  /-- What is open under each number. -/
  opened : Nat → Option OpenFile
  /-- The number of the next descriptor. -/
  nextNumber : Nat

namespace Machine

/-- A machine on a tree, with nothing open. -/
def ofTree (t : FileTree) (cwd : Location) : Machine := ⟨t, cwd, fun _ => none, 0⟩

/-- One more than the largest offset and length that the system takes. -/
def offsetLimit : Nat := 0x8000000000000000

/-- The length that a directory reports. -/
def directoryLength : Nat := 4096

/-! ## The table of descriptors -/

/-- The machine with one more open file, and its descriptor. -/
def openTarget (m : Machine) (p : Path) (f : OpenFile) : Descriptor × Machine :=
  (⟨m.nextNumber, p⟩,
    { m with
      opened := fun k => if k = m.nextNumber then some f else m.opened k
      nextNumber := m.nextNumber + 1 })

/-- The machine without what is open under a number. -/
def forget (m : Machine) (number : Nat) : Machine :=
  { m with opened := fun k => if k = number then none else m.opened k }

/-- The machine with another content of a file. -/
def setContent (m : Machine) (id : FileId) (c : Content) : Machine :=
  { m with tree := m.tree.setContent id c }

/-! ## What each call does -/

/-- Opens a path. -/
def openPath (m : Machine) (p : Path) : OpenMode → Except Int Descriptor × Machine
  | .read =>
    match m.tree.openExisting m.workingDirectory p with
    | .error code => (.error code, m)
    | .ok target =>
      let (d, m') := m.openTarget p ⟨false, target⟩
      (.ok d, m')
  | .write _ _ =>
    match m.tree.openOrMake m.workingDirectory p with
    | .error code => (.error code, m)
    | .ok (id, t) =>
      let (d, m') := { m with tree := t }.openTarget p ⟨true, .file id⟩
      (.ok d, m')

/-- Closes a descriptor. -/
def close (m : Machine) (d : Descriptor) : Except Int Unit × Machine :=
  match m.opened d.number with
  | none => (.error Errno.badDescriptor, m)
  | some _ => (.ok (), m.forget d.number)

/-- Sets the length of a file open for writing. -/
def setLength (m : Machine) (d : Descriptor) (length : UInt64) : Except Int Unit × Machine :=
  match m.opened d.number with
  | none => (.error Errno.badDescriptor, m)
  | some ⟨true, .file id⟩ =>
    if length.toNat < offsetLimit then
      (.ok (), m.setContent id ((m.tree.content id).setLength length.toNat))
    else (.error Errno.invalidArgument, m)
  | some _ => (.error Errno.invalidArgument, m)

/-- Extends a file open for writing to a length, or to `least` where that is more. -/
def allocate (m : Machine) (d : Descriptor) (length : UInt64) (least : Nat) :
    Except Int Unit × Machine :=
  if length = 0 ∨ offsetLimit ≤ length.toNat then (.error Errno.invalidArgument, m)
  else
    match m.opened d.number with
    | some ⟨true, .file id⟩ =>
      (.ok (), m.setContent id ((m.tree.content id).extendTo (max length.toNat least)))
    | _ => (.error Errno.badDescriptor, m)

/-- The length of what is open under a descriptor. -/
def lengthOf (m : Machine) (d : Descriptor) : Except Int Nat :=
  match m.opened d.number with
  | none => .error Errno.badDescriptor
  | some ⟨_, .directory⟩ => .ok directoryLength
  | some ⟨_, .file id⟩ => .ok (m.tree.content id).length

/-- Writes bytes at an offset. -/
def writeAt (m : Machine) (d : Descriptor) (bytes : Bytes) (offset : UInt64) :
    Except Int Nat × Machine :=
  if offsetLimit ≤ offset.toNat then (.error Errno.invalidArgument, m)
  else
    match m.opened d.number with
    | some ⟨true, .file id⟩ =>
      -- a write is refused as a whole if its end is out of range
      if offsetLimit ≤ offset.toNat + bytes.length then (.error Errno.invalidArgument, m)
      else
        (.ok bytes.length, m.setContent id ((m.tree.content id).overlay offset.toNat bytes))
    | _ => (.error Errno.badDescriptor, m)

/-- Reads at most `count` bytes at an offset. -/
def readAt (m : Machine) (d : Descriptor) (count : Nat) (offset : UInt64) : Except Int Bytes :=
  if offsetLimit ≤ offset.toNat then .error Errno.invalidArgument
  else
    match m.opened d.number with
    | some ⟨false, target⟩ =>
      if offsetLimit ≤ offset.toNat + count then .error Errno.invalidArgument
      else
        match target with
        | .directory => .error Errno.isDirectory
        | .file id => .ok ((m.tree.content id).slice offset.toNat count)
    | _ => .error Errno.badDescriptor

/-- The answer, if a descriptor is open at all. -/
def ifOpen {α : Type} (m : Machine) (d : Descriptor) (a : α) : Except Int α :=
  match m.opened d.number with
  | none => .error Errno.badDescriptor
  | some _ => .ok a

/-- Removes a name. -/
def unlink (m : Machine) (p : Path) : Except Int Unit × Machine :=
  match m.tree.unlink m.workingDirectory p with
  | .error code => (.error code, m)
  | .ok t => (.ok (), { m with tree := t })

/-- The machine after a call that fails by verdict: a close still closes. -/
def afterFailure (m : Machine) : SystemCall → Machine
  | .close d => m.forget d.number
  | _ => m

/-- The effect and the reply of a call that a verdict lets through. -/
def perform (m : Machine) (v : Verdict) : (c : SystemCall) → c.Reply × Machine
  | .open_ p mode => m.openPath p mode
  | .close d => m.close d
  | .sync d => (m.ifOpen d (), m)
  | .setLength d n => m.setLength d n
  | .allocate d n => m.allocate d n v.leastLength
  | .length d => (m.lengthOf d, m)
  | .fileSystem d => (m.ifOpen d v.fileSystemWord, m)
  | .writeAt d bytes offset =>
    m.writeAt d (bytes.take (v.limit bytes.length)) offset
  | .readAt d count offset => (m.readAt d (v.limit count) offset, m)
  | .unlink p => m.unlink p
  | .inspect p => (m.tree.inspectEntry m.workingDirectory p, m)

/-- The effect and the reply of a call under a verdict. -/
def answer (m : Machine) (v : Verdict) (c : SystemCall) : c.Reply × Machine :=
  match v with
  | .fail code => (.error code, m.afterFailure c)
  | v => m.perform v c

end Machine

/-! ## Machines under a policy -/

/-- Decides about each call in turn, from a state of its own. -/
abbrev Policy (φ : Type) : Type := SystemCall → φ → Verdict × φ

/-- The handler of a machine whose calls a policy decides about. -/
def Policy.handler {φ : Type} (decide : Policy φ) : Program.Handler System (Machine × φ) :=
  fun c w =>
    let (v, s) := decide c w.2
    let (r, m) := w.1.answer v c
    (r, (m, s))

end WriteAhead
