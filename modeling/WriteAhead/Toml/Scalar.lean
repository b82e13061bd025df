/-
# Scalars

The values of a TOML document that contain no others: truth values, whole numbers, numbers with a
fraction or an exponent, moments and strings.
-/
import WriteAhead.Toml.Moment
import WriteAhead.Toml.Quoted

namespace WriteAhead.Toml

open Text

/-- A value that contains no others.  Numbers are as they are written, whatever their size. -/
inductive Scalar where
  | boolean (value : Bool)
  | integer (value : Int)
  | decimal (value : Decimal)
  /-- A date or time, as its text. -/
  | moment (text : String)
  | string (text : String)
deriving DecidableEq, Repr

/-! ## Digits in groups -/

/-- The digits of a row in which single underscores may part them. -/
def ungrouped (isDigit : Char → Bool) : List Char → Option (List Char)
  | [] => none
  | [c] => if isDigit c then some [c] else none
  | c :: '_' :: rest => if isDigit c then (c :: ·) <$> ungrouped isDigit rest else none
  | c :: rest => if isDigit c then (c :: ·) <$> ungrouped isDigit rest else none

/-- The digits of a row that has no zero in front of others. -/
def ungroupedWhole (cs : List Char) : Option (List Char) := do
  let digits ← ungrouped Char.isDigit cs
  if digits.head? = some '0' ∧ digits ≠ ['0'] then none else some digits

/-! ## Numbers -/

/-- The value of digits in a base other than ten, of a class. -/
def readInBase (base : Nat) (isDigit : Char → Bool) (cs : List Char) : Option Int :=
  (ungrouped isDigit cs).map fun digits => (Decimal.digitsValue base digits : Int)

/-- The whole number that a text spells. -/
def readWhole : List Char → Option Int
  | '0' :: 'x' :: cs => readInBase 16 isHexDigit cs
  | '0' :: 'o' :: cs => readInBase 8 (fun c => '0' ≤ c && c ≤ '7') cs
  | '0' :: 'b' :: cs => readInBase 2 (fun c => c == '0' || c == '1') cs
  | cs => do
    let (negative, rest) := Decimal.splitSign cs
    let digits ← ungroupedWhole rest
    return Decimal.signed negative (Decimal.digitsValue 10 digits)

/-- The exponent's digits without underscores, with their sign. -/
def ungroupedExponent (cs : List Char) : Option (List Char) := do
  let digits ← ungrouped Char.isDigit (Decimal.splitSign cs).2
  return if (Decimal.splitSign cs).1 then '-' :: digits else digits

/-- The parts of a number with a fraction or an exponent, without underscores. -/
def ungroupedParts (p : Decimal.Parts) : Option Decimal.Parts := do
  let whole ← ungroupedWhole p.whole
  let fraction ← p.fraction.mapM (ungrouped Char.isDigit)
  let exponent ← p.exponent.mapM ungroupedExponent
  if p.fraction.isNone ∧ p.exponent.isNone then none else some ⟨whole, fraction, exponent⟩

/-- The number with a fraction or an exponent, or none of the finite numbers, that a text
spells. -/
def readDecimal (cs : List Char) : Option Decimal :=
  let (negative, rest) := Decimal.splitSign cs
  if rest = ['i', 'n', 'f'] then some (.infinite negative)
  else if rest = ['n', 'a', 'n'] then some .notANumber
  else (ungroupedParts (Decimal.Parts.split rest)).bind (·.value negative)

/-! ## Scalars without quotes -/

/-- The character may stand in a scalar without quotes. -/
def isPlainChar (c : Char) : Bool :=
  c.isAlphanum || c == '+' || c == '-' || c == '.' || c == ':' || c == '_'

/-- The scalar that a text without quotes spells. -/
def readPlain (cs : List Char) : Option Scalar :=
  if cs = ['t', 'r', 'u', 'e'] then some (.boolean true)
  else if cs = ['f', 'a', 'l', 's', 'e'] then some (.boolean false)
  else
    .integer <$> readWhole cs
      <|> .decimal <$> readDecimal cs
      <|> (fun m => .moment (String.ofList m)) <$> Reader.whole moment cs

/-- Takes the text of a time that is parted from the date before it by a space. -/
def spacedTime : Reader (List Char) := do
  Reader.char ' '
  let first ← Reader.satisfying Char.isDigit
  return ' ' :: first :: (← Reader.run isPlainChar)

/-- Takes a scalar without quotes. -/
def plainScalar : Reader Scalar := do
  let word ← Reader.run1 isPlainChar
  let more ← if (Reader.whole date word).isSome then Reader.optional spacedTime else pure none
  (readPlain (word ++ more.getD []) : Option Scalar)

/-- Takes a scalar of any kind. -/
def scalar : Reader Scalar :=
  (fun cs => .string (String.ofList cs)) <$> anyString <|> plainScalar

end WriteAhead.Toml
