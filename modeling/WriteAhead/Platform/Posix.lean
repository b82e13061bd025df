/-
# The POSIX platform

Each platform step as a program over system calls.  Durable files are opened with synchronous
and direct flags; ephemeral ones are unlinked by whoever closes them; and a directory is synced
unless its file system is a remote one.
-/
import WriteAhead.DirectorySync
import WriteAhead.Platform.Resize

namespace WriteAhead

namespace Posix

/-! ## Single calls -/

/-- Makes a call, and makes it again while a signal interrupts it, at most `patience` times. -/
def persist (c : SystemCall) : (patience : Nat) → SystemProgram c.Reply
  | 0 => c.make
  | patience + 1 => Program.ask c fun r =>
    match r with
    | .error code =>
      if code = Errno.interrupted then persist c patience else .done (.error code)
    | .ok a => .done (.ok a)

/-- Makes a call once. -/
def once (c : SystemCall) : SystemProgram (Except SystemError c.Result) := do
  return ofSystem (← c.make)

/-- Opens a path; a zero byte in it is found before any call. -/
def openPath (patience : Nat) (p : Path) (mode : OpenMode) :
    SystemProgram (Except SystemError Descriptor) := do
  if p.hasZeroByte then return .error .zeroByteInPath
  else return ofSystem (← persist (.open_ p mode) patience)

/-- Forces a file or directory to stable storage. -/
def sync (patience : Nat) (d : Descriptor) : SystemProgram (Except SystemError Unit) := do
  return ofSystem (← persist (.sync d) patience)

/-- Sets the length of a file; one that is no signed word is found before any call. -/
def setLength (patience : Nat) (d : Descriptor) (size : UInt64) :
    SystemProgram (Except SystemError Unit) := do
  if 0x8000000000000000 ≤ size.toNat then return .error .lengthTooLarge
  else return ofSystem (← persist (.setLength d size) patience)

/-- Reads some bytes, and reports as many as there are. -/
def readAt (d : Descriptor) (count : Nat) (offset : UInt64) :
    SystemProgram (Except SystemError Transfer) := do
  match ← once (.readAt d count offset) with
  | .ok bytes => return .ok ⟨bytes.length, bytes⟩
  | .error e => return .error e

/-- Removes a name; a zero byte in it is found before any call. -/
def unlink (p : Path) : SystemProgram (Except SystemError Unit) := do
  if p.hasZeroByte then return .error .zeroByteInPath
  else once (.unlink p)

/-- Asks whether a path names an entry. -/
def entryExists (p : Path) : SystemProgram Bool := do
  if p.hasZeroByte then return false
  else
    match ← (SystemCall.inspect p).make with
    | .ok () => return true
    | .error _ => return false

/-! ## Directories -/

/-- The policy for the file system that an open directory lies on. -/
def policyOf (d : Descriptor) : SystemProgram (Except JournalError SyncPolicy) := do
  match ← once (.fileSystem d) with
  | .ok word => return .ok (SyncPolicy.ofFileSystem word)
  | .error e => return .error (.stat e)

/-- Opens a directory, does something with it, and closes it; whether the close fails is lost. -/
def withDirectory {α : Type} (patience : Nat) (dir : Path)
    (use : Descriptor → SystemProgram (Except JournalError α)) :
    SystemProgram (Except JournalError α) := do
  match ← openPath patience dir .read with
  | .error e => return .error (.opening dir e)
  | .ok d =>
    let result ← use d
    -- closed whatever came of its use, and whether this fails is nobody's concern
    let _ ← once (.close d)
    return result

/-- Whether a directory may be synced; a directory that cannot be examined is an error. -/
def syncAllowed (patience : Nat) (dir : Path) : SystemProgram (Except JournalError SyncPolicy) :=
  withDirectory patience dir policyOf

/-- Syncs an open directory if the policy for it allows. -/
def syncDirectory (patience : Nat) (dir : Path) (d : Descriptor) :
    SystemProgram (Except JournalError Unit) := do
  match ← policyOf d with
  | .error e => return .error e
  | .ok .allowed =>
    match ← sync patience d with
    | .ok () => return .ok ()
    | .error e => return .error (.sync e)
  | .ok .notAllowed =>
    Program.emit (.directorySyncSkipped dir)
    return .ok ()

/-- Syncs the directory that holds a path, if the policy for it allows. -/
def syncDirectoryFor (patience : Nat) (p : Path) : SystemProgram (Except JournalError Unit) :=
  withDirectory patience p.directory (syncDirectory patience p.directory)

/-! ## All steps -/

/-- The parts of a resize as system calls. -/
def resizer (patience : Nat) (d : Descriptor) : Resizer (Program System Event) where
  length := once (.length d)
  preallocate := fun n => once (.allocate d n)
  setLength := setLength patience d
  isUnsupported := SystemError.isUnsupported
  note := Program.emit

/-- The program that takes a platform step. -/
def serve (patience : Nat) : (s : Step) → SystemProgram s.Reply
  | .openForWrite p flags => openPath patience p (.write flags.synchronous flags.unbuffered)
  | .finishUnbuffered _ => return .ok ()
  | .openForRead p => openPath patience p .read
  | .writeAt d bytes offset => once (.writeAt d bytes offset)
  | .readAt d count offset => readAt d count offset
  | .flush d => do
    match ← sync patience d with
    | .ok () => return .ok ()
    | .error e => return .error (.sync e)
  | .fileSize d => do
    match ← once (.length d) with
    | .ok n => return .ok n
    | .error e => return .error (.stat e)
  | .resize d size => (resizer patience d).resize size
  | .preallocate d n => once (.allocate d n)
  | .systemLength d => once (.length d)
  | .setSystemLength d n => setLength patience d n
  | .syncDirectoryFor p => syncDirectoryFor patience p
  | .unlink p => unlink p
  | .close d => once (.close d)
  | .entryExists p => entryExists p

/-- A journal program as a program over system calls. -/
def native {α : Type} (patience : Nat) (p : StepProgram α) : SystemProgram α :=
  p.through (serve patience)

end Posix

end WriteAhead
