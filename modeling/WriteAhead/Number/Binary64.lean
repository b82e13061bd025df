/-
# Binary floating point

Numbers with 53 significant bits, as decimal texts are read into and sizes are rounded from.  All
arithmetic is exact in natural numbers, and each operation rounds once.
-/

namespace WriteAhead

/-- A binary floating-point number: `mantissa` times a power of two, or none of the finite ones. -/
inductive Binary64 where
  | notANumber
  | infinite (negative : Bool)
  | finite (negative : Bool) (mantissa : Nat) (exponent : Int)
deriving DecidableEq, Repr

namespace Binary64

/-! ## Rounding a quotient -/

/-- The quotient rounded to the nearest integer, a half to the even neighbour. -/
def roundHalfEven (num den : Nat) : Nat :=
  let q := num / den
  let r := num % den
  if 2 * r < den then q
  else if den < 2 * r then q + 1
  else if q % 2 = 0 then q else q + 1

/-- The quotient rounded to the nearest integer, a half upwards. -/
def roundHalfUp (num den : Nat) : Nat :=
  (2 * num + den) / (2 * den)

/-- `num / den` divided by two to the power `e`, as a numerator and a denominator. -/
def scaled (num den : Nat) (e : Int) : Nat × Nat :=
  if 0 ≤ e then (num, den <<< e.toNat) else (num <<< (-e).toNat, den)

/-- The least exponent of a finite number. -/
def leastExponent : Int := -1074

/-- The greatest exponent of a finite number. -/
def greatestExponent : Int := 971

/-- The exponent at which `num / den` has 53 significant bits, or the least one. -/
def exponentOf (num den : Nat) : Int :=
  let e := (Nat.log2 num : Int) - (Nat.log2 den : Int) - 52
  let (n, d) := scaled num den e
  -- the logarithms are rounded down, which can cost one bit
  max leastExponent (if n / d < 1 <<< 52 then e - 1 else e)

/-- The number nearest to `num / den`, a tie going to the even mantissa. -/
def ofQuotient (negative : Bool) (num den : Nat) : Binary64 :=
  if num = 0 then .finite negative 0 leastExponent
  else
    let e := exponentOf num den
    let (n, d) := scaled num den e
    let m := roundHalfEven n d
    -- rounding up can reach the next power of two
    let (m, e) := if m = 1 <<< 53 then (1 <<< 52, e + 1) else (m, e)
    if greatestExponent < e then .infinite negative else .finite negative m e

/-- The number of decimal digits of a number; zero has one. -/
def decimalLength (n : Nat) : Nat := (Nat.toDigits 10 n).length

/-- The number nearest to `digits` times ten to the power `exponent`. -/
def ofDecimal (negative : Bool) (digits : Nat) (exponent : Int) : Binary64 :=
  if digits = 0 then .finite negative 0 leastExponent
  else
    let magnitude := exponent + decimalLength digits
    -- so far out, the answer is known without computing the power of ten
    if 400 < magnitude then .infinite negative
    else if magnitude < -400 then .finite negative 0 leastExponent
    else if 0 ≤ exponent then ofQuotient negative (digits * Nat.pow 10 exponent.toNat) 1
    else ofQuotient negative digits (Nat.pow 10 (-exponent).toNat)

/-! ## Rounding to a word -/

/-- The magnitude rounded to the nearest integer, a half away from zero. -/
def roundMagnitude (mantissa : Nat) (exponent : Int) : Nat :=
  if 0 ≤ exponent then mantissa <<< exponent.toNat
  else roundHalfUp mantissa (1 <<< (-exponent).toNat)

/-- The nearest 64-bit word: a half goes away from zero, what is too small or no number at all is
zero, and what is too large is the largest word. -/
def toWord : Binary64 → UInt64
  | notANumber => 0
  | infinite negative => if negative then 0 else 0xFFFFFFFFFFFFFFFF
  | finite negative m e =>
    if negative then 0 else UInt64.ofNat (min (roundMagnitude m e) 0xFFFFFFFFFFFFFFFF)

end Binary64

end WriteAhead
