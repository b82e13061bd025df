/-
# Outcomes

An operation ends in a value, in a `JournalError`, or in a `Panic`: a contract that its caller
broke, or arithmetic that left the 64-bit words.
-/
import WriteAhead.JournalError

namespace WriteAhead

/-- A broken contract, after which the operation has no result. -/
inductive Panic where
  /-- A journal was to be opened with initial size zero. -/
  | initialSizeZero
  /-- A sum left the 64-bit words. -/
  | addOverflow
  /-- A value was to be rounded to something other than a power of two. -/
  | alignmentNotPowerOfTwo
  /-- A buffer was to be larger than any object may be. -/
  | capacityOverflow
  /-- A handle was used after it was released. -/
  | handleReleased
deriving DecidableEq, Repr

/-- The text of a broken contract. -/
def Panic.message : Panic → String
  | initialSizeZero => "journal initial size must be positive"
  | addOverflow => "attempt to add with overflow"
  | alignmentNotPowerOfTwo => "alignment must be a power of two"
  | capacityOverflow => "capacity overflow"
  | handleReleased => "journal file already released"

/-- Why an operation has no value. -/
inductive Failure where
  | error (error : JournalError)
  | panic (panic : Panic)
deriving DecidableEq

/-- What an operation ends in. -/
abbrev Outcome (α : Type) : Type := Except Failure α

/-- The outcome of an operation that cannot break a contract. -/
def Outcome.ofResult {α : Type} : Except JournalError α → Outcome α
  | .ok a => .ok a
  | .error e => .error (.error e)

theorem Outcome.ofResult_eq_ok_iff {α : Type} {result : Except JournalError α} {a : α} :
    Outcome.ofResult result = .ok a ↔ result = .ok a := by
  cases result <;> simp [Outcome.ofResult]

theorem Outcome.ofResult_eq_error_iff {α : Type} {result : Except JournalError α}
    {e : JournalError} : Outcome.ofResult result = .error (.error e) ↔ result = .error e := by
  cases result <;> simp [Outcome.ofResult]

/-! ## Computations that can fail -/

section Except

variable {ε ε' α β : Type} {x : Except ε α} {f : α → Except ε β} {g : ε → ε'} {a : α} {b : β}

theorem bind_eq_ok_iff : (x >>= f) = .ok b ↔ ∃ a, x = .ok a ∧ f a = .ok b := by
  cases x with
  | error e => simp [bind, Except.bind]
  | ok a => simp [bind, Except.bind]

theorem throw_ne_ok {e : ε} : (throw e : Except ε α) ≠ .ok a := by
  simp [throw, throwThe, MonadExceptOf.throw]

theorem toOption_eq_some_iff : x.toOption = some a ↔ x = .ok a := by
  cases x <;> simp [Except.toOption]

theorem mapError_eq_ok_iff : x.mapError g = .ok a ↔ x = .ok a := by
  cases x with
  | error e => exact iff_of_false nofun nofun
  | ok a' =>
    show (.ok a' : Except ε' α) = .ok a ↔ _
    simp only [Except.ok.injEq]

end Except

/-! ## Sums of words -/

/-- One more than the largest 64-bit word. -/
def wordLimit : Nat := 0x10000000000000000

/-- The largest number of bytes that one object may have. -/
def objectLimit : Nat := 0x7FFFFFFFFFFFFFFF

/-- The sum of two words, if it is one. -/
def addWords? (a b : Nat) : Except Panic Nat :=
  if a + b < wordLimit then .ok (a + b) else .error .addOverflow

theorem addWords?_eq_ok_iff {a b c : Nat} :
    addWords? a b = .ok c ↔ a + b = c ∧ a + b < wordLimit := by
  unfold addWords?
  by_cases h : a + b < wordLimit <;> simp [h]

end WriteAhead
