/-
# Aligned buffers

A buffer whose visible bytes start at a multiple of the block size and are a whole number of
blocks.  The store behind it is one block larger than that, so a window that starts aligned fits
in it wherever the store lies; the window is fixed when the buffer is made.
-/
import WriteAhead.Buffer.Alignment
import WriteAhead.Content

namespace WriteAhead

/-- A window of whole blocks in a store that lies at an address. -/
structure AlignedBuffer where
  /-- The address of the first byte of the store. -/
  base : Nat
  /-- All bytes of the store. -/
  storage : Bytes
  /-- The position of the window in the store. -/
  start : Nat
  /-- The length of the window. -/
  length : Nat

namespace AlignedBuffer

/-! ## Making a buffer -/

/-- The distance from an address to the next block boundary. -/
def gap (address : Nat) : Nat :=
  (blockSize - address % blockSize) % blockSize

/-- The buffer of `length` bytes in a zeroed store at an address. -/
def ofStore (base length : Nat) : AlignedBuffer :=
  ⟨base, List.replicate (length + blockSize) 0, gap base, length⟩

/-- The lengths of the window and of the store for a request of `length` bytes. -/
def sizes (length : Nat) : Except Panic (Nat × Nat) := do
  let window ← roundUp length blockSize
  let total ← addWords? window blockSize
  return (window, total)

/-- A zeroed buffer of at least `length` bytes, in a store at `base`. -/
def zeroed (base length : Nat) : Except Panic AlignedBuffer := do
  let (window, total) ← sizes length
  if total ≤ objectLimit then return ofStore base window
  else throw .capacityOverflow

/-- Answers a request for a number of bytes with an address, or with none. -/
abbrev Allocator : Type := Nat → Option Nat

/-- Like `zeroed`, with a store that an allocator may refuse. -/
def tryZeroed (allocate : Allocator) (length : Nat) : Outcome AlignedBuffer :=
  match sizes length with
  | .error p => .error (.panic p)
  | .ok (window, total) =>
    -- no allocator is asked for more than an object may have
    if total ≤ objectLimit then
      match allocate total with
      | some base => .ok (ofStore base window)
      | none => .error (.error (.allocation total .allocator))
    else .error (.error (.allocation total .capacity))

/-! ## Reading and writing -/

/-- The visible bytes. -/
def bytes (b : AlignedBuffer) : Bytes :=
  (b.storage.drop b.start).take b.length

/-- The buffer has no visible bytes. -/
def isEmpty (b : AlignedBuffer) : Bool := b.length == 0

/-- The visible bytes from one position up to another. -/
def slice (b : AlignedBuffer) (first last : Nat) : Bytes :=
  (b.bytes.drop first).take (last - first)

/-- The visible bytes from one position up to another can be transferred unbuffered. -/
def isSliceAligned (b : AlignedBuffer) (first last : Nat) : Bool :=
  isAligned (b.base + b.start + first) (last - first)

/-- The store after `data` is laid over it from a position. -/
def overlayStore (storage : Bytes) (position : Nat) (data : Bytes) : Bytes :=
  storage.take position ++ data ++ storage.drop (position + data.length)

/-- Writes `data` to the visible bytes from `position`; nothing if it does not fit. -/
def write? (b : AlignedBuffer) (position : Nat) (data : Bytes) : Option AlignedBuffer :=
  if position + data.length ≤ b.length then
    some { b with storage := overlayStore b.storage (b.start + position) data }
  else none

/-- Fills all visible bytes with one byte. -/
def fill (b : AlignedBuffer) (byte : UInt8) : AlignedBuffer :=
  { b with storage := overlayStore b.storage b.start (List.replicate b.length byte) }

/-- A buffer that holds `data`, zero-padded to the next block boundary. -/
def ofData (base : Nat) (data : Bytes) : Except Panic AlignedBuffer := do
  let b ← zeroed base data.length
  return { b with storage := overlayStore b.storage b.start data }

end AlignedBuffer

end WriteAhead
