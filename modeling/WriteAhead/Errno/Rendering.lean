/-
# Error texts in bounded buffers

Renders the text for a code into a buffer of fixed size, ended by a zero byte and cut, where it
does not fit, between two characters.
-/
import WriteAhead.Errno
import WriteAhead.Text.Utf8

namespace WriteAhead.Errno

/-- Position `n` of `bytes` lies between two characters. -/
def isBoundary (bytes : Bytes) (n : Nat) : Bool :=
  match bytes[n]? with
  | some b => !Text.isContinuation b
  | none => true

/-- The last boundary at or before position `n`. -/
def boundaryUpTo (bytes : Bytes) : Nat → Nat
  | 0 => 0
  | n + 1 => if isBoundary bytes (n + 1) then n + 1 else boundaryUpTo bytes n

/-- What rendering reports: the class of the code always, and the number of bytes written before
the zero byte unless the buffer has no room even for that. -/
structure Rendering where
  special : Special
  /-- The number of bytes written, or nothing if the buffer is empty. -/
  written : Option Nat
  buffer : Bytes
deriving DecidableEq

/-- The message of a rendering that found no room. -/
def noRoomMessage : String :=
  "error string buffer has no room for a terminator"

/-- The buffer after `text` was written to it, cut to fit and ended by a zero byte, and the number
of bytes before that. -/
def renderInto (text : Bytes) : Bytes → Option (Nat × Bytes)
  | [] => none
  | b :: rest =>
    -- one byte of the buffer is kept for the zero
    let n := boundaryUpTo text (min text.length rest.length)
    some (n, text.take n ++ 0 :: (b :: rest).drop (n + 1))

/-- Renders the text for a code into a buffer. -/
def render (system : Int → String) (code : Int) (buffer : Bytes) : Rendering :=
  match renderInto (Text.encode (describe system code)) buffer with
  | some (n, after) => ⟨classify code, some n, after⟩
  | none => ⟨classify code, none, buffer⟩

end WriteAhead.Errno
