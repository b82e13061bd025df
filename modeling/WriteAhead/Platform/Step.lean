/-
# Platform steps

What journal code asks of a platform, as an `Interface`: opening, transfers, flushing, resizing,
closing and removing.  A platform decides how each step is done; `Features` is what it says about
itself without being asked to do anything.
-/
import WriteAhead.Event
import WriteAhead.System.Call

namespace WriteAhead

/-! ## Steps -/

/-- What a read put into a buffer: the count it reports, and the bytes it put there. -/
structure Transfer where
  count : Nat
  bytes : Bytes
deriving DecidableEq

/-- A step that a platform takes for a journal. -/
inductive Step where
  /-- Opens a file for writing, made if absent. -/
  | openForWrite (path : Path) (flags : OpenFlags)
  /-- Completes unbuffered access to a file that was just opened. -/
  | finishUnbuffered (d : Descriptor)
  /-- Opens a file that exists. -/
  | openForRead (path : Path)
  /-- Writes some of the bytes at an offset, and says how many. -/
  | writeAt (d : Descriptor) (bytes : Bytes) (offset : UInt64)
  /-- Reads some bytes at an offset; none at the end of the file. -/
  | readAt (d : Descriptor) (count : Nat) (offset : UInt64)
  /-- Forces written data to stable storage. -/
  | flush (d : Descriptor)
  /-- Asks for the size of a journal file. -/
  | fileSize (d : Descriptor)
  /-- Makes a file exactly so long. -/
  | resize (d : Descriptor) (size : UInt64)
  /-- Reserves space from the start of a file, extending it if it is shorter. -/
  | preallocate (d : Descriptor) (length : UInt64)
  /-- Asks the system itself for the length of a file. -/
  | systemLength (d : Descriptor)
  /-- Has the system itself set the length of a file. -/
  | setSystemLength (d : Descriptor) (length : UInt64)
  /-- Syncs the directory that holds a path, where the policy for it allows. -/
  | syncDirectoryFor (path : Path)
  /-- Removes a name. -/
  | unlink (path : Path)
  /-- Closes a file. -/
  | close (d : Descriptor)
  /-- Asks the system itself whether a path names an entry. -/
  | entryExists (path : Path)

namespace Step

/-- What a step is answered with. -/
abbrev Reply : Step → Type
  | openForWrite _ _ | openForRead _ => Except SystemError Descriptor
  | finishUnbuffered _ | preallocate _ _ | setSystemLength _ _ | unlink _ | close _ =>
    Except SystemError Unit
  | writeAt _ _ _ => Except SystemError Nat
  | readAt _ _ _ => Except SystemError Transfer
  | systemLength _ => Except SystemError Nat
  | flush _ | resize _ _ | syncDirectoryFor _ => Except JournalError Unit
  | fileSize _ => Except JournalError Nat
  | entryExists _ => Bool

end Step

/-- The interface of a platform. -/
abbrev Steps : Interface where
  Request := Step
  Reply := Step.Reply

/-- A program over platform steps. -/
abbrev StepProgram (α : Type) : Type := Program Steps Event α

/-- A program over system calls. -/
abbrev SystemProgram (α : Type) : Type := Program System Event α

/-- The program that takes one step. -/
def Step.take (s : Step) : StepProgram s.Reply := Program.ask s Program.done

/-- The program that makes one call. -/
def SystemCall.make (c : SystemCall) : SystemProgram c.Reply := Program.ask c Program.done

/-! ## What a platform says about itself -/

/-- What is fixed about a platform. -/
structure Features where
  /-- The system itself removes a file opened with the delete-on-close flag. -/
  deletesOnClose : Bool
  /-- The error means that an argument was invalid. -/
  isInvalidArgument : SystemError → Bool
  /-- The error means that the file system cannot preallocate. -/
  isUnsupported : SystemError → Bool

/-- The features of a POSIX platform. -/
def Features.posix : Features :=
  ⟨false, SystemError.isInvalidArgument, SystemError.isUnsupported⟩

/-- Reads a reply of a system call as that of a system. -/
def ofSystem {α : Type} : Except Int α → Except SystemError α
  | .ok a => .ok a
  | .error code => .error (.code code)

end WriteAhead
