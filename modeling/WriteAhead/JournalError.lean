/-
# Journal errors

Every journal operation fails with a `JournalError`: a cause, the system's own error, and what
was being attempted.  Each cause has one `Status`, whose integer is stable, and a detail code.
-/
import WriteAhead.Path
import WriteAhead.SystemError

namespace WriteAhead

/-! ## Status -/

/-- The coarse outcome of a journal operation. -/
inductive Status where
  | success
  | allocationFailure
  | openFailure
  | statFailure
  | resizeFailure
  | syncFailure
  | closeFailure
  | unlinkFailure
  | flushFailure
  | allocateSpaceFailure
  | durabilityNotSupported
  | getSizeFailure
  | writeFailure
  | readFailure
deriving DecidableEq, Repr

namespace Status

/-- All outcomes, in the order of their codes. -/
def all : List Status :=
  [success, allocationFailure, openFailure, statFailure, resizeFailure, syncFailure,
    closeFailure, unlinkFailure, flushFailure, allocateSpaceFailure, durabilityNotSupported,
    getSizeFailure, writeFailure, readFailure]

/-- The stable integer of an outcome. -/
def code : Status → Int
  | success => 0
  | allocationFailure => 1
  | openFailure => 2
  | statFailure => 3
  | resizeFailure => 4
  | syncFailure => 5
  | closeFailure => 6
  | unlinkFailure => 7
  | flushFailure => 8
  | allocateSpaceFailure => 9
  | durabilityNotSupported => 10
  | getSizeFailure => 11
  | writeFailure => 12
  | readFailure => 13

/-- The name of an outcome. -/
def name : Status → String
  | success => "Success"
  | allocationFailure => "AllocationFailure"
  | openFailure => "OpenFailure"
  | statFailure => "StatFailure"
  | resizeFailure => "ResizeFailure"
  | syncFailure => "SyncFailure"
  | closeFailure => "CloseFailure"
  | unlinkFailure => "UnlinkFailure"
  | flushFailure => "FlushFailure"
  | allocateSpaceFailure => "AllocateSpaceFailure"
  | durabilityNotSupported => "DurabilityNotSupported"
  | getSizeFailure => "GetSizeFailure"
  | writeFailure => "WriteFailure"
  | readFailure => "ReadFailure"

/-- The outcome is the one that is no failure. -/
def isSuccess (s : Status) : Bool := s == success

end Status

/-! ## Errors -/

/-- Why memory could not be reserved. -/
inductive ReserveFailure where
  /-- More bytes than any object may have. -/
  | capacity
  /-- The allocator had none to give. -/
  | allocator
deriving DecidableEq, Repr

/-- The text of a failed reservation. -/
def ReserveFailure.message : ReserveFailure → String
  | capacity =>
    "memory allocation failed because the computed capacity exceeded the collection's maximum"
  | allocator => "memory allocation failed because the memory allocator returned an error"

/-- Why a journal operation failed. -/
inductive JournalError where
  /-- A buffer could not be reserved. -/
  | allocation (size : Nat) (cause : ReserveFailure)
  | opening (path : Path) (cause : SystemError)
  | stat (cause : SystemError)
  | getSize (cause : SystemError)
  | resize (size : UInt64) (cause : SystemError)
  | sync (cause : SystemError)
  | flush (cause : SystemError)
  | close (cause : SystemError)
  | unlink (path : Path) (cause : SystemError)
  | allocateSpace (size : UInt64) (cause : SystemError)
  /-- The storage rejected unbuffered synchronous writes. -/
  | durabilityNotSupported (path : Path) (cause : SystemError)
  | write (offset : UInt64) (length : Nat) (cause : SystemError)
  | read (offset : UInt64) (length : Nat) (cause : SystemError)
deriving DecidableEq

namespace JournalError

/-- The outcome that an error is classified as. -/
def status : JournalError → Status
  | allocation _ _ => .allocationFailure
  | opening _ _ => .openFailure
  | stat _ => .statFailure
  | getSize _ => .getSizeFailure
  | resize _ _ => .resizeFailure
  | sync _ => .syncFailure
  | flush _ => .flushFailure
  | close _ => .closeFailure
  | unlink _ _ => .unlinkFailure
  | allocateSpace _ _ => .allocateSpaceFailure
  | durabilityNotSupported _ _ => .durabilityNotSupported
  | write _ _ _ => .writeFailure
  | read _ _ _ => .readFailure

/-- The name of the kind of error. -/
def name : JournalError → String
  | allocation _ _ => "Allocation"
  | opening _ _ => "Open"
  | stat _ => "Stat"
  | getSize _ => "GetSize"
  | resize _ _ => "Resize"
  | sync _ => "Sync"
  | flush _ => "Flush"
  | close _ => "Close"
  | unlink _ _ => "Unlink"
  | allocateSpace _ _ => "AllocateSpace"
  | durabilityNotSupported _ _ => "DurabilityNotSupported"
  | write _ _ _ => "Write"
  | read _ _ _ => "Read"

/-- The text of the error behind this one. -/
def causeMessage : JournalError → String
  | allocation _ e => e.message
  | opening _ e | stat e | getSize e | resize _ e | sync e | flush e | close e | unlink _ e
  | allocateSpace _ e | durabilityNotSupported _ e | write _ _ e | read _ _ e => e.message

/-- What was being attempted. -/
def attempt : JournalError → String
  | allocation size _ => s!"failed to allocate {size} bytes"
  | opening path _ => s!"failed to open {path.toText}"
  | stat _ => "failed to stat journal file"
  | getSize _ => "failed to query journal file size"
  | resize size _ => s!"failed to resize journal file to {size} bytes"
  | sync _ => "failed to sync"
  | flush _ => "failed to flush journal file buffers"
  | close _ => "failed to close journal file"
  | unlink path _ => s!"failed to unlink {path.toText}"
  | allocateSpace size _ => s!"failed to allocate {size} bytes of file space"
  | durabilityNotSupported path _ => s!"storage at {path.toText} does not support durable writes"
  | write offset length _ => s!"failed to write {length} bytes at offset {offset}"
  | read offset length _ => s!"failed to read {length} bytes at offset {offset}"

/-- The text of an error: what was attempted, then why it failed. -/
def message (e : JournalError) : String :=
  e.attempt ++ ": " ++ e.causeMessage

/-- The raw code behind an error: zero where no system call failed, and the code for no memory
where a reservation did. -/
def detailCode : JournalError → Int
  | allocation _ _ => Errno.outOfMemory
  | opening _ e | stat e | getSize e | resize _ e | sync e | flush e | close e | unlink _ e
  | allocateSpace _ e | durabilityNotSupported _ e | write _ _ e | read _ _ e => e.code?.getD 0

/-- The special condition behind an error. -/
def special (e : JournalError) : Errno.Special :=
  Errno.classify e.detailCode

end JournalError

end WriteAhead
