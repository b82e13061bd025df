/-
# Events

What journal code reports to a log as it runs.  An event knows its level, its message and its
named fields; where it is sent is not this library's concern.
-/
import WriteAhead.JournalError
import WriteAhead.Mode
import WriteAhead.Text.Quoted

namespace WriteAhead

/-- How serious an event is. -/
inductive Level where
  | debug
  | warning
  | error
deriving DecidableEq, Repr

/-- The name of a level. -/
def Level.name : Level → String
  | debug => "DEBUG"
  | warning => "WARN"
  | error => "ERROR"

/-- The value of a field of an event. -/
inductive Field where
  | text (text : String)
  | number (value : Int)
  | flag (value : Bool)
deriving DecidableEq, Repr

/-- Something worth reporting. -/
inductive Event where
  | openedForWrites (path : Path) (mode : JournalMode) (support : DurabilitySupport)
      (size : Nat)
  | openedForReads (path : Path)
  | rollbackUnlinkFailed (path : Path) (cause error : JournalError)
  | rollbackCloseFailed (path : Path) (error : JournalError)
  | truncated (size : UInt64)
  | closed (path : Option Path) (ok : Bool)
  | closeFailedAfterUnlink (error reported : JournalError)
  | dropFailed (error : JournalError)
  | preallocationUnsupported (size : UInt64) (error : SystemError)
  | directorySyncSkipped (directory : Path)
  | probeCloseFailed (path : Path) (error : SystemError)
  | probeUnlinkFailed (path : Path) (error : SystemError)
  | probePassed (path : Path)
  | probeFailed (path : Path) (error : JournalError)
deriving DecidableEq

namespace Event

/-- The level of an event. -/
def level : Event → Level
  | openedForWrites _ _ _ _ | openedForReads _ | truncated _ | closed _ _
  | preallocationUnsupported _ _ | directorySyncSkipped _ | probePassed _ | probeFailed _ _ =>
    .debug
  | rollbackUnlinkFailed _ _ _ | rollbackCloseFailed _ _ | probeCloseFailed _ _
  | probeUnlinkFailed _ _ => .warning
  | closeFailedAfterUnlink _ _ | dropFailed _ => .error

/-- The message of an event. -/
def message : Event → String
  | openedForWrites _ _ _ _ => "opened journal for writes"
  | openedForReads _ => "opened journal for reads"
  | rollbackUnlinkFailed _ _ _ => "failed to remove ephemeral journal during rollback"
  | rollbackCloseFailed _ _ => "failed to close journal during rollback"
  | truncated _ => "truncated journal"
  | closed _ _ => "closed journal"
  | closeFailedAfterUnlink _ _ => "journal close failed after unlink failure"
  | dropFailed _ => "failed to release journal dropped without close"
  | preallocationUnsupported _ _ => "preallocation unsupported, extending file"
  | directorySyncSkipped _ => "directory sync skipped on remote filesystem"
  | probeCloseFailed _ _ => "failed to close durability probe file"
  | probeUnlinkFailed _ _ => "failed to remove durability probe file"
  | probePassed _ => "storage supports durable journals"
  | probeFailed _ _ => "storage durability probe failed"

/-- A path in quotes, or the word for its absence. -/
def quotedPath : Option Path → String
  | some p => "Some(" ++ Text.quotedBytes p.bytes ++ ")"
  | none => "None"

/-- The field of a word. -/
def word (w : UInt64) : Field := .number (Int.ofNat w.toNat)

/-- The named fields of an event. -/
def fields : Event → List (String × Field)
  | openedForWrites p m s size =>
    [("path", .text p.toText), ("mode", .text m.name), ("support", .text s.name),
      ("size", .number size)]
  | openedForReads p => [("path", .text p.toText)]
  | rollbackUnlinkFailed p cause e =>
    [("path", .text p.toText), ("cause", .text cause.message), ("error", .text e.message)]
  | rollbackCloseFailed p e => [("path", .text p.toText), ("error", .text e.message)]
  | truncated size => [("size", word size)]
  | closed p ok => [("path", .text (quotedPath p)), ("ok", .flag ok)]
  | closeFailedAfterUnlink e reported =>
    [("error", .text e.message), ("detail_code", .number e.detailCode),
      ("reported", .text reported.message)]
  | dropFailed e => [("error", .text e.message)]
  | preallocationUnsupported size e => [("size", word size), ("error", .text e.message)]
  | directorySyncSkipped d => [("dir", .text d.toText)]
  | probeCloseFailed p e => [("path", .text p.toText), ("error", .text e.message)]
  | probeUnlinkFailed p e => [("path", .text p.toText), ("error", .text e.message)]
  | probePassed p => [("path", .text p.toText)]
  | probeFailed p e =>
    [("path", .text p.toText), ("status", .text e.status.name), ("error", .text e.message)]

end Event

end WriteAhead
