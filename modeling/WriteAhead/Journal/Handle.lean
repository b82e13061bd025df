/-
# Journal handles

A handle owns one open journal file.  This module holds what ends a handle's life: release, which
removes an ephemeral file and closes the descriptor, and the close, drop and rollback built on it.
-/
import WriteAhead.Outcome
import WriteAhead.Platform.Step

namespace WriteAhead

/-- A journal file, open until it is released. -/
structure Handle where
  /-- The descriptor, until the handle is released. -/
  descriptor : Option Descriptor
  /-- The path, which only handles for writing have. -/
  path : Option Path
  /-- The file is removed when the handle is released. -/
  deleteOnClose : Bool
deriving DecidableEq

namespace Handle

/-- The handle after its descriptor is gone. -/
def released (h : Handle) : Handle := { h with descriptor := none }

/-- Does something with the open file; a released handle has none. -/
def withFile {α : Type} (h : Handle) (use : Descriptor → StepProgram (Outcome α)) :
    StepProgram (Outcome α) :=
  match h.descriptor with
  | some d => use d
  | none => return .error (.panic .handleReleased)

/-! ## Release -/

/-- The path to be unlinked on release, if there is one. -/
def unlinkPath? (t : Features) (h : Handle) : Option Path :=
  if h.deleteOnClose && !t.deletesOnClose then h.path else none

/-- Unlinks a path, if there is one. -/
def unlinkIfAny : Option Path → StepProgram (Except JournalError Unit)
  | none => return .ok ()
  | some p => do
    match ← (Step.unlink p).take with
    | .ok () => return .ok ()
    | .error e => return .error (.unlink p e)

/-- Closes a descriptor after an unlink that ended as `unlinked`.  The unlink's failure is the
one reported, and a failed close beside it is only noted. -/
def closeAfter (d : Descriptor) (unlinked : Except JournalError Unit) :
    StepProgram (Except JournalError Unit) := do
  match ← (Step.close d).take with
  | .ok () => return unlinked
  | .error e =>
    match unlinked with
    | .ok () => return .error (.close e)
    | .error first =>
      Program.emit (.closeFailedAfterUnlink (.close e) first)
      return .error first

/-- Unlinks the file if it is ephemeral, then closes it; a released handle is left alone. -/
def release (t : Features) (h : Handle) : StepProgram (Except JournalError Unit × Handle) :=
  match h.descriptor with
  | none => return (.ok (), h)
  | some d => do
    let unlinked ← unlinkIfAny (h.unlinkPath? t)
    let result ← closeAfter d unlinked
    return (result, h.released)

/-- Lets go of a handle that goes out of use; what fails is only noted. -/
def drop (t : Features) (h : Handle) : StepProgram Handle := do
  let (result, h') ← h.release t
  match result with
  | .ok () => return h'
  | .error e =>
    Program.emit (.dropFailed e)
    return h'

/-- Closes the journal, removing it first if it is ephemeral; the handle then goes out of use. -/
def close (t : Features) (h : Handle) : StepProgram (Except JournalError Unit × Handle) := do
  let (result, h') ← h.release t
  Program.emit (.closed h'.path result.isOk)
  -- the handle was released above, so that going out of use asks for nothing
  return (result, ← h'.drop t)

/-- The error reported for a rollback whose release ended as `released`.  A failed unlink
replaces the cause, and a failed close is only noted. -/
def rollbackError (path : Path) (cause : JournalError) :
    (released : Except JournalError Unit) → StepProgram JournalError
  | .ok () => return cause
  | .error (.unlink p e) => do
    Program.emit (.rollbackUnlinkFailed path cause (.unlink p e))
    return .unlink p e
  | .error e => do
    Program.emit (.rollbackCloseFailed path e)
    return cause

/-- Rolls back a handle that was not finished, which then goes out of use. -/
def abort (t : Features) (h : Handle) (cause : JournalError) : StepProgram JournalError := do
  let (result, h') ← h.release t
  let error ← rollbackError (h.path.getD Path.empty) cause result
  let _ ← h'.drop t
  return error

end Handle

end WriteAhead
