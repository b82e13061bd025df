/-
# The storage self-test

Some storage accepts the durable flags when a file is opened and rejects them when it is used.
Preallocating a small file that was opened with them brings this to light.  The file is removed
again; where the open itself fails, only if nothing was at the path before.
-/
import WriteAhead.Outcome
import WriteAhead.Platform.Step

namespace WriteAhead

namespace Probe

/-- The space that the test file reserves. -/
def size : UInt64 := 65536

/-- The error for a failed reservation. -/
def allocationError (t : Features) (path : Path) (e : SystemError) : JournalError :=
  if t.isInvalidArgument e then .durabilityNotSupported path e else .allocateSpace size e

/-- Removes the test file; that it is gone already is fine, and anything else is only noted. -/
def remove (path : Path) : StepProgram Unit := do
  match ← (Step.unlink path).take with
  | .ok () => return ()
  | .error e =>
    if e.isNotFound then return ()
    else Program.emit (.probeUnlinkFailed path e)

/-- Reserves space in the open test file, closes it and removes it. -/
def useFile (t : Features) (path : Path) (d : Descriptor) :
    StepProgram (Except JournalError Unit) := do
  let allocated ← (Step.preallocate d size).take
  -- the file is closed and removed whether or not there was space
  match ← (Step.close d).take with
  | .ok () => pure ()
  | .error e => Program.emit (.probeCloseFailed path e)
  remove path
  match allocated with
  | .ok () => return .ok ()
  | .error e => return .error (allocationError t path e)

/-- Opens, uses and removes a test file at a path. -/
def attempt (t : Features) (path : Path) : StepProgram (Except JournalError Unit) := do
  let existed ← (Step.entryExists path).take
  match ← (Step.openForWrite path OpenFlags.durable).take with
  | .ok d => useFile t path d
  | .error e =>
    -- the open may have made the file before it failed
    if !existed then remove path
    return .error (.opening path e)

/-- Checks whether the storage behind a path supports durable journals. -/
def run (t : Features) (path : Path) : StepProgram (Except JournalError Unit) := do
  match ← attempt t path with
  | .ok () =>
    Program.emit (.probePassed path)
    return .ok ()
  | .error e =>
    Program.emit (.probeFailed path e)
    return .error e

end Probe

end WriteAhead
