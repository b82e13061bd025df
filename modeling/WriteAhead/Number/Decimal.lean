/-
# Decimal text

Numbers as they are written in decimal: whole numbers with or without a sign, and numbers with a
fraction or an exponent, which are exact until they are rounded to a `Binary64`.
-/
import WriteAhead.Number.Binary64

namespace WriteAhead

/-- The number that a decimal text spells. -/
inductive Decimal where
  | notANumber
  | infinite (negative : Bool)
  /-- The digits times ten to the power of the exponent. -/
  | finite (negative : Bool) (digits : Nat) (exponent : Int)
deriving DecidableEq, Repr

namespace Decimal

/-! ## Digits -/

/-- The value of a digit in any base up to sixteen. -/
def digitValue (c : Char) : Nat :=
  if c ≤ '9' then c.toNat - 48 else if c ≤ 'F' then c.toNat - 55 else c.toNat - 87

/-- The value of a row of digits. -/
def digitsValue (base : Nat) (cs : List Char) : Nat :=
  cs.foldl (fun n c => n * base + digitValue c) 0

/-- The text is a row of at least one digit. -/
def isDigits (cs : List Char) : Bool := cs != [] && cs.all Char.isDigit

/-! ## Whole numbers -/

/-- A sign at the front of a text: whether it is negative, and the text after it. -/
def splitSign : List Char → Bool × List Char
  | '-' :: rest => (true, rest)
  | '+' :: rest => (false, rest)
  | cs => (false, cs)

/-- A magnitude with its sign. -/
def signed (negative : Bool) (n : Nat) : Int := if negative then -(n : Int) else n

/-- The whole number that a text of digits with an optional sign spells. -/
def readInteger (cs : List Char) : Option Int :=
  let (negative, rest) := splitSign cs
  if isDigits rest then some (signed negative (digitsValue 10 rest)) else none

/-- The natural number that a text of digits with an optional plus sign spells. -/
def readNatural : List Char → Option Nat
  | '+' :: rest => if isDigits rest then some (digitsValue 10 rest) else none
  | cs => if isDigits cs then some (digitsValue 10 cs) else none

/-! ## Fractions and exponents -/

/-- The parts of a text without sign: what stands before the point, what stands between the point
and the exponent's mark, and what stands after that mark. -/
structure Parts where
  whole : List Char
  fraction : Option (List Char)
  exponent : Option (List Char)
deriving DecidableEq

/-- The character marks an exponent. -/
def isExponentMark (c : Char) : Bool := c == 'e' || c == 'E'

/-- The part that a mark introduces. -/
def afterMark (isMark : Char → Bool) : List Char → Option (List Char)
  | [] => none
  | c :: rest => if isMark c then some rest else none

/-- Splits a text into its parts. -/
def Parts.split (cs : List Char) : Parts :=
  let mantissa := cs.takeWhile (!isExponentMark ·)
  { whole := mantissa.takeWhile (· != '.')
    fraction := afterMark (· == '.') (mantissa.dropWhile (· != '.'))
    exponent := afterMark isExponentMark (cs.dropWhile (!isExponentMark ·)) }

/-- The number that parts of digits spell. -/
def Parts.value (p : Parts) (negative : Bool) : Option Decimal := do
  let fraction := p.fraction.getD []
  let exponent ← match p.exponent with
    | some e => readInteger e
    | none => some 0
  if isDigits (p.whole ++ fraction) then
    some (.finite negative (digitsValue 10 (p.whole ++ fraction)) (exponent - fraction.length))
  else none

/-- The lower case of a text of letters. -/
def lowerLetters (cs : List Char) : List Char := cs.map Char.toLower

/-- The number that a text spells: digits with an optional sign, point and exponent, or the words
for infinity and for no number. -/
def read (cs : List Char) : Option Decimal :=
  let (negative, rest) := splitSign cs
  match String.ofList (lowerLetters rest) with
  | "inf" | "infinity" => some (.infinite negative)
  | "nan" => some .notANumber
  | _ => (Parts.split rest).value negative

/-! ## Rounding -/

/-- The binary number nearest to a decimal one. -/
def nearest : Decimal → Binary64
  | notANumber => .notANumber
  | infinite negative => .infinite negative
  | finite negative digits exponent => Binary64.ofDecimal negative digits exponent

/-- The number is finite, but nearer to infinity than to any finite binary number. -/
def overflows : Decimal → Bool
  | finite negative digits exponent =>
    Binary64.ofDecimal negative digits exponent == .infinite negative
  | _ => false

end Decimal

end WriteAhead
