/-
# Reading and writing a journal

A platform may move fewer bytes than it is asked to, so a transfer is repeated with what is left
until all is done, a step fails, or a step moves nothing.
-/
import WriteAhead.Journal.Handle

namespace WriteAhead

namespace Handle

/-! ## Writing -/

/-- Writes `rest`, of `total` bytes that start at `offset` and of which `written` are done. -/
def writeRest (d : Descriptor) (offset : UInt64) (total written : Nat) (rest : Bytes) :
    StepProgram (Outcome Unit) :=
  if rest = [] then .done (.ok ())
  else
    match addWords? offset.toNat written with
    | .error p => .done (.error (.panic p))
    | .ok position =>
      .ask (.writeAt d rest (UInt64.ofNat position)) fun
        | .error e => .done (.error (.error (.write offset total e)))
        | .ok n =>
          -- a platform that moves nothing would be asked forever
          if n = 0 then
            .done (.error (.error (.write offset total (.kind .writeZero))))
          else
            match addWords? written n with
            | .error p => .done (.error (.panic p))
            | .ok done => writeRest d offset total done (rest.drop n)
termination_by rest.length
decreasing_by
  have : rest.length ≠ 0 := fun h => ‹¬rest = []› (List.length_eq_zero_iff.mp h)
  simp only [List.length_drop]
  omega

/-- Writes all of `bytes` at `offset`. -/
def write (h : Handle) (bytes : Bytes) (offset : UInt64) : StepProgram (Outcome Unit) :=
  h.withFile fun d => writeRest d offset bytes.length 0 bytes

/-! ## Reading -/

/-- What a read leaves: its outcome, and the buffer. -/
structure ReadResult where
  outcome : Outcome Nat
  buffer : Bytes

/-- The buffer after bytes were put into it from a position; what does not fit is left out. -/
def place (buffer : Bytes) (position : Nat) (bytes : Bytes) : Bytes :=
  buffer.take position ++ bytes.take (buffer.length - position) ++
    buffer.drop (position + bytes.length)

/-- Reads into `buffer`, of which `filled` bytes are done. -/
def readRest (d : Descriptor) (offset : UInt64) (filled : Nat) (buffer : Bytes) :
    (left : Nat) → StepProgram ReadResult
  | 0 => .done ⟨.ok filled, buffer⟩
  | left + 1 =>
    match addWords? offset.toNat filled with
    | .error p => .done ⟨.error (.panic p), buffer⟩
    | .ok position =>
      .ask (.readAt d (left + 1) (UInt64.ofNat position)) fun
        | .error e => .done ⟨.error (.error (.read offset buffer.length e)), buffer⟩
        | .ok t =>
          let buffer' := place buffer filled t.bytes
          -- the end of the file, which is no failure
          if t.count = 0 then .done ⟨.ok filled, buffer'⟩
          else
            match addWords? filled t.count with
            | .error p => .done ⟨.error (.panic p), buffer'⟩
            | .ok done => readRest d offset done buffer' (left + 1 - t.count)
termination_by left => left

/-- Reads at `offset` into a buffer, up to its length, and returns the number of bytes read. -/
def read (h : Handle) (buffer : Bytes) (offset : UInt64) : StepProgram ReadResult :=
  match h.descriptor with
  | some d => readRest d offset 0 buffer buffer.length
  | none => return ⟨.error (.panic .handleReleased), buffer⟩

/-! ## Size -/

/-- The size of the journal file. -/
def size (h : Handle) : StepProgram (Outcome Nat) :=
  h.withFile fun d => do return Outcome.ofResult (← (Step.fileSize d).take)

/-- Resizes the journal durably: flush, resize, flush, and the directory for a handle with a
path.  The first step that fails is the error. -/
def truncateFile (path : Option Path) (d : Descriptor) (size : UInt64) :
    StepProgram (Except JournalError Unit) := do
  match ← (Step.flush d).take with
  | .error e => return .error e
  | .ok () =>
    match ← (Step.resize d size).take with
    | .error e => return .error e
    | .ok () =>
      match ← (Step.flush d).take with
      | .error e => return .error e
      | .ok () =>
        match path with
        | none => return .ok ()
        | some p => (Step.syncDirectoryFor p).take

/-- Resizes the journal to `size` bytes, durably. -/
def truncate (h : Handle) (size : UInt64) : StepProgram (Outcome Unit) :=
  h.withFile fun d => do
    match ← truncateFile h.path d size with
    | .ok () =>
      Program.emit (.truncated size)
      return .ok ()
    | .error e => return .error (.error e)

end Handle

end WriteAhead
