/-
# Errors of the surrounding system

What a failed system call, or a failure found before any call, is reported as: a raw code, a kind
without a text of its own, or a kind with one.  Only the first has a code.
-/
import WriteAhead.Errno

namespace WriteAhead

/-- The kinds of failure that have a name. -/
inductive ErrorKind where
  | notFound
  | permissionDenied
  | alreadyExists
  | wouldBlock
  | invalidInput
  | invalidData
  | timedOut
  | writeZero
  | storageFull
  | interrupted
  | unsupported
  | unexpectedEnd
  | outOfMemory
  | other
deriving DecidableEq, Repr

/-- The text of a kind that comes without one. -/
def ErrorKind.text : ErrorKind → String
  | notFound => "entity not found"
  | permissionDenied => "permission denied"
  | alreadyExists => "entity already exists"
  | wouldBlock => "operation would block"
  | invalidInput => "invalid input parameter"
  | invalidData => "invalid data"
  | timedOut => "timed out"
  | writeZero => "write zero"
  | storageFull => "no storage space"
  | interrupted => "operation interrupted"
  | unsupported => "unsupported"
  | unexpectedEnd => "unexpected end of file"
  | outOfMemory => "out of memory"
  | other => "other error"

/-- An error of the surrounding system. -/
inductive SystemError where
  /-- A system call failed with this code. -/
  | code (code : Int)
  /-- A failure of a kind, without a text of its own. -/
  | kind (kind : ErrorKind)
  /-- A failure of a kind, with its text. -/
  | custom (kind : ErrorKind) (text : String)
deriving DecidableEq, Repr

namespace SystemError

/-- The raw code, which only a failed system call has. -/
def code? : SystemError → Option Int
  | code n => some n
  | kind _ => none
  | custom _ _ => none

/-- The text shown for the error. -/
def message : SystemError → String
  | code n => Errno.message Errno.text n
  | kind k => k.text
  | custom _ text => text

/-- The error says that something does not exist. -/
def isNotFound : SystemError → Bool
  | code n => n == Errno.noEntry
  | kind k => k == .notFound
  | custom k _ => k == .notFound

/-- The system rejected an argument. -/
def isInvalidArgument (e : SystemError) : Bool :=
  e.code? == some Errno.invalidArgument

/-- The file system lacks the operation. -/
def isUnsupported (e : SystemError) : Bool :=
  e.code? == some Errno.notSupported || e.code? == some Errno.notImplemented

/-- A path holds a zero byte, which no name on the system can. -/
def zeroByteInPath : SystemError :=
  .custom .invalidInput "file name contained an unexpected NUL byte"

/-- A length does not fit the signed word that the system takes. -/
def lengthTooLarge : SystemError :=
  .custom .invalidInput "number too large to fit in target type"

end SystemError

end WriteAhead
