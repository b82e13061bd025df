/-
# Resizing a file

Makes a file exactly so long.  Growth reserves the space first, so that a full disk shows here
and not at a later write; a file system that cannot reserve gets a sparse extension instead.  A
reservation may leave the file too long, so the length is always set at the end.

The steps may be taken in any monad: by system calls, by a platform that keeps a record of what
it is asked for, or by requests that a handler answers.
-/
import WriteAhead.Platform.Step

namespace WriteAhead

/-- How the parts of a resize are done in a monad `m`. -/
structure Resizer (m : Type → Type) where
  /-- Asks for the length of the file. -/
  length : m (Except SystemError Nat)
  /-- Reserves space up to a length, extending the file if it is shorter. -/
  preallocate : UInt64 → m (Except SystemError Unit)
  /-- Sets the length of the file. -/
  setLength : UInt64 → m (Except SystemError Unit)
  /-- The error means that the file system cannot reserve space. -/
  isUnsupported : SystemError → Bool
  /-- Notes an event. -/
  note : Event → m Unit

namespace Resizer

variable {m : Type → Type} [Monad m]

/-- Sets the length at the end of a resize. -/
def pin (r : Resizer m) (size : UInt64) : m (Except JournalError Unit) := do
  match ← r.setLength size with
  | .ok () => return .ok ()
  | .error e => return .error (.resize size e)

/-- Reserves the space for a file that has to grow, then sets its length. -/
def growTo (r : Resizer m) (size : UInt64) : m (Except JournalError Unit) := do
  match ← r.preallocate size with
  | .ok () => r.pin size
  | .error e =>
    if r.isUnsupported e then
      r.note (.preallocationUnsupported size e)
      r.pin size
    else return .error (.resize size e)

/-- Makes the file exactly `size` bytes long. -/
def resize (r : Resizer m) (size : UInt64) : m (Except JournalError Unit) := do
  match ← r.length with
  | .error e => return .error (.resize size e)
  -- a file that is long enough needs no space reserved
  | .ok current => if current < size.toNat then r.growTo size else r.pin size

end Resizer

/-- The parts of a resize as steps of a platform. -/
def Step.resizer (t : Features) (d : Descriptor) : Resizer StepProgram where
  length := (Step.systemLength d).take
  preallocate := fun n => (Step.preallocate d n).take
  setLength := fun n => (Step.setSystemLength d n).take
  isUnsupported := t.isUnsupported
  note := Program.emit

end WriteAhead
