/-
# System error codes

The codes a system call can fail with, the system's text for each, and the coarse class that
callers react to.

* `describe_eq` : whatever text the system has for a code, `describe` gives back that text, even
  when the text itself ends like the suffix that error messages carry.
-/

namespace WriteAhead

namespace Errno

/-! ## Codes -/

/-- No such file or directory. -/
def noEntry : Int := 2

/-- A system call was interrupted by a signal. -/
def interrupted : Int := 4

/-- The descriptor is not open, or not open for this use. -/
def badDescriptor : Int := 9

/-- Out of memory. -/
def outOfMemory : Int := 12

/-- A directory was needed and something else was found. -/
def notDirectory : Int := 20

/-- A directory was found and something else was needed. -/
def isDirectory : Int := 21

/-- An argument is invalid. -/
def invalidArgument : Int := 22

/-- No space left on the device. -/
def outOfSpace : Int := 28

/-- A path or one of its names is too long. -/
def nameTooLong : Int := 36

/-- The system lacks the call. -/
def notImplemented : Int := 38

/-- Too many symbolic links were followed. -/
def tooManyLinks : Int := 40

/-- The file system does not support the operation. -/
def notSupported : Int := 95

/-! ## Texts -/

/-- The texts of the codes from zero on. -/
def texts : Array String := #[
    "Success",
    "Operation not permitted",
    "No such file or directory",
    "No such process",
    "Interrupted system call",
    "Input/output error",
    "No such device or address",
    "Argument list too long",
    "Exec format error",
    "Bad file descriptor",
    "No child processes",
    "Resource temporarily unavailable",
    "Cannot allocate memory",
    "Permission denied",
    "Bad address",
    "Block device required",
    "Device or resource busy",
    "File exists",
    "Invalid cross-device link",
    "No such device",
    "Not a directory",
    "Is a directory",
    "Invalid argument",
    "Too many open files in system",
    "Too many open files",
    "Inappropriate ioctl for device",
    "Text file busy",
    "File too large",
    "No space left on device",
    "Illegal seek",
    "Read-only file system",
    "Too many links",
    "Broken pipe",
    "Numerical argument out of domain",
    "Numerical result out of range",
    "Resource deadlock avoided",
    "File name too long",
    "No locks available",
    "Function not implemented",
    "Directory not empty",
    "Too many levels of symbolic links",
    "Unknown error 41",
    "No message of desired type",
    "Identifier removed",
    "Channel number out of range",
    "Level 2 not synchronized",
    "Level 3 halted",
    "Level 3 reset",
    "Link number out of range",
    "Protocol driver not attached",
    "No CSI structure available",
    "Level 2 halted",
    "Invalid exchange",
    "Invalid request descriptor",
    "Exchange full",
    "No anode",
    "Invalid request code",
    "Invalid slot",
    "Unknown error 58",
    "Bad font file format",
    "Device not a stream",
    "No data available",
    "Timer expired",
    "Out of streams resources",
    "Machine is not on the network",
    "Package not installed",
    "Object is remote",
    "Link has been severed",
    "Advertise error",
    "Srmount error",
    "Communication error on send",
    "Protocol error",
    "Multihop attempted",
    "RFS specific error",
    "Bad message",
    "Value too large for defined data type",
    "Name not unique on network",
    "File descriptor in bad state",
    "Remote address changed",
    "Can not access a needed shared library",
    "Accessing a corrupted shared library",
    ".lib section in a.out corrupted",
    "Attempting to link in too many shared libraries",
    "Cannot exec a shared library directly",
    "Invalid or incomplete multibyte or wide character",
    "Interrupted system call should be restarted",
    "Streams pipe error",
    "Too many users",
    "Socket operation on non-socket",
    "Destination address required",
    "Message too long",
    "Protocol wrong type for socket",
    "Protocol not available",
    "Protocol not supported",
    "Socket type not supported",
    "Operation not supported",
    "Protocol family not supported",
    "Address family not supported by protocol",
    "Address already in use",
    "Cannot assign requested address",
    "Network is down",
    "Network is unreachable",
    "Network dropped connection on reset",
    "Software caused connection abort",
    "Connection reset by peer",
    "No buffer space available",
    "Transport endpoint is already connected",
    "Transport endpoint is not connected",
    "Cannot send after transport endpoint shutdown",
    "Too many references: cannot splice",
    "Connection timed out",
    "Connection refused",
    "Host is down",
    "No route to host",
    "Operation already in progress",
    "Operation now in progress",
    "Stale file handle",
    "Structure needs cleaning",
    "Not a XENIX named type file",
    "No XENIX semaphores available",
    "Is a named type file",
    "Remote I/O error",
    "Disk quota exceeded",
    "No medium found",
    "Wrong medium type",
    "Operation canceled",
    "Required key not available",
    "Key has expired",
    "Key has been revoked",
    "Key was rejected by service",
    "Owner died",
    "State not recoverable",
    "Operation not possible due to RF-kill",
    "Memory page has hardware error"]

/-- The system's text for a code; a code without one of its own is named by its number. -/
def text : Int → String
  | .ofNat n => (texts[n]?).getD s!"Unknown error {n}"
  | .negSucc n => s!"Unknown error -{n + 1}"

/-- The suffix that a message carries to show its code. -/
def suffix (code : Int) : String :=
  s!" (os error {code})"

/-- The message of a failed system call: the system's text, then the code. -/
def message (system : Int → String) (code : Int) : String :=
  system code ++ suffix code

/-- The part of `s` before a final `tail`, if `s` ends so. -/
def stripSuffix? (s tail : List Char) : Option (List Char) :=
  if tail.isSuffixOf s then some (s.take (s.length - tail.length)) else none

/-- The message for a code without the code itself. -/
def describe (system : Int → String) (code : Int) : String :=
  let rendered := message system code
  match stripSuffix? rendered.toList (suffix code).toList with
  | some chars => String.ofList chars
  | none => rendered

theorem stripSuffix?_append (s tail : List Char) : stripSuffix? (s ++ tail) tail = some s := by
  have h : tail <:+ s ++ tail := List.suffix_append s tail
  simp [stripSuffix?, List.isSuffixOf_iff_suffix, h]

/-- A code is described by exactly the system's text for it. -/
theorem describe_eq (system : Int → String) (code : Int) :
    describe system code = system code := by
  simp [describe, message, stripSuffix?_append]

/-! ## Classes -/

/-- The conditions that callers commonly react to. -/
inductive Special where
  | none
  | outOfMemory
  | notFound
  | outOfSpace
deriving DecidableEq, Repr

/-- The class of a code. -/
def classify (code : Int) : Special :=
  if code = Errno.outOfMemory then .outOfMemory
  else if code = noEntry then .notFound
  else if code = Errno.outOfSpace then .outOfSpace
  else .none

/-- The name of a class. -/
def Special.name : Special → String
  | .none => "None"
  | .outOfMemory => "OutOfMemory"
  | .notFound => "NotFound"
  | .outOfSpace => "OutOfSpace"

end Errno

end WriteAhead
