/-
# Dates and times

A date, a time of day, or both, with or without an offset from universal time.  A moment is kept
as its text, in one form for each moment: a capital `T` between date and time, a capital `Z` for no
offset, at most nine digits of a second and no zeros after the last of them.
-/
import WriteAhead.Number.Decimal
import WriteAhead.Text.Reader

namespace WriteAhead.Toml

open Text

/-- Takes `count` digits whose value lies between two bounds. -/
def digitsWithin (count low high : Nat) : Reader (List Char) := do
  let digits ← Reader.exactly Char.isDigit count
  let value := Decimal.digitsValue 10 digits
  if low ≤ value ∧ value ≤ high then return digits else failure

/-! ## Dates -/

/-- The year has a 29th of February. -/
def isLeapYear (year : Nat) : Bool :=
  year % 4 == 0 && (year % 100 != 0 || year % 400 == 0)

/-- The number of days in a month. -/
def daysInMonth (year month : Nat) : Nat :=
  if month = 2 then (if isLeapYear year then 29 else 28)
  else if month = 4 ∨ month = 6 ∨ month = 9 ∨ month = 11 then 30
  else 31

/-- Takes a date. -/
def date : Reader (List Char) := do
  let year ← digitsWithin 4 0 9999
  Reader.char '-'
  let month ← digitsWithin 2 1 12
  Reader.char '-'
  let day ← digitsWithin 2 1
    (daysInMonth (Decimal.digitsValue 10 year) (Decimal.digitsValue 10 month))
  return year ++ '-' :: month ++ '-' :: day

/-! ## Times of day -/

/-- The digits of a fraction of a second without what is beyond the ninth, and without zeros at
the end as far as one digit stays. -/
def shortFraction (digits : List Char) : List Char :=
  match ((digits.take 9).reverse.dropWhile (· == '0')).reverse with
  | [] => ['0']
  | short => short

/-- Takes the fraction of a second. -/
def secondFraction : Reader (List Char) := do
  Reader.char '.'
  let digits ← Reader.run1 Char.isDigit
  return '.' :: shortFraction digits

/-- Takes the seconds of a time. -/
def seconds : Reader (List Char) := do
  Reader.char ':'
  let second ← digitsWithin 2 0 60
  let fraction ← Reader.optional secondFraction
  return ':' :: second ++ fraction.getD []

/-- Takes a time of day. -/
def timeOfDay : Reader (List Char) := do
  let hour ← digitsWithin 2 0 23
  Reader.char ':'
  let minute ← digitsWithin 2 0 59
  let rest ← Reader.optional seconds
  return hour ++ ':' :: minute ++ rest.getD []

/-! ## Offsets -/

/-- Takes the mark of universal time. -/
def universal : Reader (List Char) := do
  let _ ← Reader.satisfying fun c => c == 'Z' || c == 'z'
  return ['Z']

/-- Takes an offset in hours and minutes; no offset at all has a plus sign. -/
def numericOffset : Reader (List Char) := do
  let sign ← Reader.satisfying fun c => c == '+' || c == '-'
  let hour ← digitsWithin 2 0 23
  Reader.char ':'
  let minute ← digitsWithin 2 0 59
  let isZero := Decimal.digitsValue 10 (hour ++ minute) == 0
  return (if isZero then '+' else sign) :: hour ++ ':' :: minute

/-! ## Moments -/

/-- Takes what follows a date: a time of day, with an offset or without. -/
def timeAfterDate : Reader (List Char) := do
  let _ ← Reader.satisfying fun c => c == 'T' || c == 't' || c == ' '
  let time ← timeOfDay
  let offset ← Reader.optional (universal <|> numericOffset)
  return 'T' :: time ++ offset.getD []

/-- Takes a date, perhaps with a time of day. -/
def dateTime : Reader (List Char) := do
  let day ← date
  let time ← Reader.optional timeAfterDate
  return day ++ time.getD []

/-- Takes a date, a time of day, or both. -/
def moment : Reader (List Char) := dateTime <|> timeOfDay

end WriteAhead.Toml
