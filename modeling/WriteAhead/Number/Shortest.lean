/-
# Shortest decimal text

The text of a binary floating-point number with the fewest digits that still read back as it,
and of those the nearest; always in positional notation, and always with a decimal point.
-/
import WriteAhead.Number.Binary64

namespace WriteAhead.Binary64

/-! ## Comparing decimals with binaries -/

/-- Compares `a` times ten to the power `p` with `b` times two to the power `e`, exactly. -/
def compareDecimal (a : Nat) (p : Int) (b : Nat) (e : Int) : Ordering :=
  compare ((a * Nat.pow 10 p.toNat) <<< (-e).toNat) ((b * Nat.pow 10 (-p).toNat) <<< e.toNat)

/-- The ends of the interval that rounds to a number, in quarters of its last place. -/
def roundingEnds (m : Nat) (e : Int) : Nat × Nat :=
  -- below a power of two the next number is only half as far away
  (if m = 1 <<< 52 ∧ leastExponent < e then 4 * m - 1 else 4 * m - 2, 4 * m + 2)

/-- The decimal reads back as the number; the ends do if the mantissa is even. -/
def readsBack (m : Nat) (e : Int) (c : Nat) (p : Int) : Bool :=
  let (low, high) := roundingEnds m e
  let ends := m % 2 == 0
  let atLow := compareDecimal c p low (e - 2)
  let atHigh := compareDecimal c p high (e - 2)
  (atLow == .gt || (ends && atLow == .eq)) && (atHigh == .lt || (ends && atHigh == .eq))

/-! ## Choosing digits -/

/-- The number divided by ten to the power `p`, rounded down. -/
def floorAt (m : Nat) (e p : Int) : Nat :=
  ((m * Nat.pow 10 (-p).toNat) <<< e.toNat) / (Nat.pow 10 p.toNat <<< (-e).toNat)

/-- Of two neighbouring decimals at place `p` that read back, the nearer; a tie goes down. -/
def nearer (m : Nat) (e : Int) (c : Nat) (p : Int) : Nat :=
  if compareDecimal (2 * c + 1) p (2 * m) e = .lt then c + 1 else c

/-- The digits at place `p` that read back as the number, if there are any. -/
def digitsAt (m : Nat) (e : Int) (p : Int) : Option Nat :=
  let c := floorAt m e p
  match readsBack m e c p, readsBack m e (c + 1) p with
  | true, true => some (nearer m e c p)
  | true, false => some c
  | false, true => some (c + 1)
  | false, false => none

/-- Tries places from `p` downwards, `tries` of them. -/
def searchDigits (m : Nat) (e : Int) : (tries : Nat) → (p : Int) → Nat × Int
  | 0, p => (floorAt m e p, p)
  | tries + 1, p =>
    match digitsAt m e p with
    | some c => (c, p)
    | none => searchDigits m e tries (p - 1)

/-- The place above the leading digit of a number. -/
def leadingPlace (m : Nat) (e : Int) : Int :=
  if 0 ≤ e then decimalLength (m <<< e.toNat)
  else
    (decimalLength ((m * Nat.pow 10 (-e).toNat) >>> (-e).toNat) : Int) + e

/-- The fewest digits that read back as a number, and the place of the last of them. -/
def shortestDigits (m : Nat) (e : Int) : Nat × Int :=
  if m = 0 then (0, 0) else searchDigits m e 20 (leadingPlace m e)

/-! ## Text -/

/-- Digits with the last at place `p`, written out with a decimal point. -/
def positional (c : Nat) (p : Int) : String :=
  let digits := Nat.toDigits 10 c
  if 0 ≤ p then
    if c = 0 then "0.0" else String.ofList (digits ++ List.replicate p.toNat '0') ++ ".0"
  else
    let places := (-p).toNat
    -- at least one digit stands before the point
    let padded := List.replicate (places + 1 - digits.length) '0' ++ digits
    let whole := padded.take (padded.length - places)
    let part := padded.drop (padded.length - places)
    String.ofList (whole ++ '.' :: part)

/-- The shortest text of a number. -/
def toText : Binary64 → String
  | notANumber => "NaN"
  | infinite negative => if negative then "-inf" else "inf"
  | finite negative m e =>
    let (c, p) := shortestDigits m e
    (if negative then "-" else "") ++ positional c p

end WriteAhead.Binary64
