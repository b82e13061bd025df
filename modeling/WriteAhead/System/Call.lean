/-
# System calls

The calls that journal code makes of a POSIX system, as an `Interface`.  A descriptor carries the
path it was opened with, so a recorded call can be shown without the state it was made in.
-/
import WriteAhead.Program
import WriteAhead.Path
import WriteAhead.Content

namespace WriteAhead

/-- An open file or directory, as the system hands it out. -/
structure Descriptor where
  number : Nat
  /-- The path it was opened with. -/
  path : Path
deriving DecidableEq

/-- How a file is opened. -/
inductive OpenMode where
  /-- For reading; it must exist. -/
  | read
  /-- For writing; it is made if absent. -/
  | write (synchronous direct : Bool)
deriving DecidableEq

/-- A call of the system.  Lengths and offsets are the 64-bit words that are passed. -/
inductive SystemCall where
  | open_ (path : Path) (mode : OpenMode)
  | close (d : Descriptor)
  /-- Forces a file's data, or a directory's entries, to stable storage. -/
  | sync (d : Descriptor)
  /-- Sets the length of a file. -/
  | setLength (d : Descriptor) (length : UInt64)
  /-- Reserves space from the start of a file, extending it if it is shorter. -/
  | allocate (d : Descriptor) (length : UInt64)
  /-- Asks for the length of a file. -/
  | length (d : Descriptor)
  /-- Asks for the type of the file system that a descriptor lies on. -/
  | fileSystem (d : Descriptor)
  | writeAt (d : Descriptor) (bytes : Bytes) (offset : UInt64)
  | readAt (d : Descriptor) (count : Nat) (offset : UInt64)
  | unlink (path : Path)
  /-- Asks whether a path names an entry, which may be a link. -/
  | inspect (path : Path)

namespace SystemCall

/-- What a call yields when it succeeds. -/
abbrev Result : SystemCall → Type
  | open_ _ _ => Descriptor
  | length _ => Nat
  | fileSystem _ => UInt64
  | writeAt _ _ _ => Nat
  | readAt _ _ _ => Bytes
  | close _ | sync _ | setLength _ _ | allocate _ _ | unlink _ | inspect _ => Unit

/-- What a call is answered with: its result, or the code it failed with. -/
abbrev Reply (c : SystemCall) : Type := Except Int c.Result

/-- The path that a call concerns. -/
def path : SystemCall → Path
  | open_ p _ | unlink p | inspect p => p
  | close d | sync d | setLength d _ | allocate d _ | length d | fileSystem d
  | writeAt d _ _ | readAt d _ _ => d.path

end SystemCall

/-- The interface of a POSIX system. -/
abbrev System : Interface where
  Request := SystemCall
  Reply := SystemCall.Reply

end WriteAhead
