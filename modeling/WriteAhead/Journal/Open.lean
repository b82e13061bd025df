/-
# Opening a journal

A journal opened for writing is grown to its initial size, never shrunk; a handle is given out
only when every step has succeeded, and is rolled back otherwise.
-/
import WriteAhead.Journal.Handle

namespace WriteAhead

namespace Journal

/-- Finishes unbuffered access, if it was asked for. -/
def finishUnbuffered (flags : OpenFlags) (d : Descriptor) :
    StepProgram (Except JournalError Unit) := do
  if flags.unbuffered then
    match ← (Step.finishUnbuffered d).take with
    | .ok () => return .ok ()
    | .error e => return .error (.sync e)
  else return .ok ()

/-- Grows a file to `initialSize` unless it is that long, and returns its size. -/
def grow (d : Descriptor) (initialSize : UInt64) : StepProgram (Except JournalError Nat) := do
  match ← (Step.fileSize d).take with
  | .error e => return .error e
  | .ok current =>
    if current < initialSize.toNat then
      match ← (Step.resize d initialSize).take with
      | .ok () => return .ok initialSize.toNat
      | .error e => return .error e
    else return .ok current

/-- Finishes and grows a file that was just opened for writing. -/
def prepare (flags : OpenFlags) (d : Descriptor) (initialSize : UInt64) :
    StepProgram (Except JournalError Nat) := do
  match ← finishUnbuffered flags d with
  | .error e => return .error e
  | .ok () => grow d initialSize

/-- Opens a journal for writing, made if absent, and returns it with its size. -/
def openForWrite (t : Features) (path : Path) (mode : JournalMode) (initialSize : UInt64)
    (support : DurabilitySupport) : StepProgram (Outcome (Handle × Nat)) := do
  if initialSize = 0 then return .error (.panic .initialSizeZero)
  else
    let flags := OpenFlags.forJournal mode support
    match ← (Step.openForWrite path flags).take with
    | .error e => return .error (.error (.opening path e))
    | .ok d =>
      -- from here on the file is open, and every failure has to be rolled back
      let h : Handle := ⟨some d, some path, flags.deleteOnClose⟩
      match ← prepare flags d initialSize with
      | .ok size =>
        Program.emit (.openedForWrites path mode support size)
        return .ok (h, size)
      | .error cause => return .error (.error (← h.abort t cause))

/-- Opens a journal that exists, for reading. -/
def openForRead (path : Path) : StepProgram (Except JournalError Handle) := do
  match ← (Step.openForRead path).take with
  | .error e => return .error (.opening path e)
  | .ok d =>
    Program.emit (.openedForReads path)
    return .ok ⟨some d, none, false⟩

end Journal

end WriteAhead
