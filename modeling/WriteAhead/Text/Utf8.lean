/-
# Reading UTF-8

Splits any row of bytes into the characters it spells and the stretches that spell none.  A
stretch that spells none is as long as it is the beginning of some character, and one byte
otherwise, so each of them stands for one replacement character.

* `flatMap_source_scan` : the pieces, put together again, are the bytes.
-/
import WriteAhead.Content

namespace WriteAhead.Text

/-! ## Byte classes -/

/-- What the first byte of a sequence announces: the number of bytes to follow and the range of
the first of them. -/
inductive Lead where
  | alone
  | followed (more : Nat) (low high : UInt8)
  | never
deriving DecidableEq

/-- The announcement made by a first byte. -/
def lead (b : UInt8) : Lead :=
  if b ≤ 0x7F then .alone
  else if b < 0xC2 then .never
  else if b ≤ 0xDF then .followed 1 0x80 0xBF
  else if b = 0xE0 then .followed 2 0xA0 0xBF
  else if b = 0xED then .followed 2 0x80 0x9F
  else if b ≤ 0xEF then .followed 2 0x80 0xBF
  else if b = 0xF0 then .followed 3 0x90 0xBF
  else if b ≤ 0xF3 then .followed 3 0x80 0xBF
  else if b = 0xF4 then .followed 3 0x80 0x8F
  else .never

/-- The byte may continue a sequence. -/
def isContinuation (b : UInt8) : Bool :=
  0x80 ≤ b && b ≤ 0xBF

/-! ## Pieces -/

/-- A piece of a byte row: a character with the bytes that spell it, or a stretch that spells
none. -/
inductive Piece where
  | char (c : Char) (source : Bytes)
  | broken (source : Bytes)
deriving DecidableEq

/-- The bytes that a piece was read from. -/
def Piece.source : Piece → Bytes
  | char _ s => s
  | broken s => s

/-- The character with the low bits of the continuation bytes joined to `start`. -/
def joined (start : Nat) (more : Bytes) : Char :=
  Char.ofNat (more.foldl (fun n b => n * 64 + b.toNat % 64) start)

/-- Splits bytes into characters and broken stretches. -/
def scan : Bytes → List Piece
  | [] => []
  | b :: rest =>
    match lead b with
    | .alone => .char (Char.ofNat b.toNat) [b] :: scan rest
    | .never => .broken [b] :: scan rest
    | .followed more low high =>
      match rest with
      | [] => [.broken [b]]
      | c :: rest₁ =>
        if low ≤ c ∧ c ≤ high then
          if more = 1 then .char (joined (b.toNat % 32) [c]) [b, c] :: scan rest₁
          else
            match rest₁ with
            | [] => [.broken [b, c]]
            | d :: rest₂ =>
              if isContinuation d then
                if more = 2 then .char (joined (b.toNat % 16) [c, d]) [b, c, d] :: scan rest₂
                else
                  match rest₂ with
                  | [] => [.broken [b, c, d]]
                  | e :: rest₃ =>
                    if isContinuation e then
                      .char (joined (b.toNat % 8) [c, d, e]) [b, c, d, e] :: scan rest₃
                    else .broken [b, c, d] :: scan (e :: rest₃)
              else .broken [b, c] :: scan (d :: rest₂)
        -- what breaks a sequence off may begin another one
        else .broken [b] :: scan (c :: rest₁)

/-- No byte is lost or moved by the split. -/
theorem flatMap_source_scan (bytes : Bytes) : (scan bytes).flatMap Piece.source = bytes := by
  fun_induction scan bytes <;> simp_all [Piece.source]

/-! ## Text -/

/-- The character shown for a piece: itself, or the replacement character. -/
def Piece.shown : Piece → Char
  | char c _ => c
  | broken _ => '\uFFFD'

/-- The text that bytes spell, with a replacement character for each broken stretch. -/
def decode (bytes : Bytes) : String :=
  String.ofList ((scan bytes).map Piece.shown)

/-- The bytes that spell a text. -/
def encode (text : String) : Bytes :=
  text.toList.flatMap String.utf8EncodeChar

end WriteAhead.Text
