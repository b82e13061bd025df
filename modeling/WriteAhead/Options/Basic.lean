/-
# Journal options

The three values that a journal is opened for writing with, their defaults, and the check that
they keep the contract of opening.
-/
import WriteAhead.Journal.Open

namespace WriteAhead

/-- What a journal is opened for writing with. -/
structure JournalOptions where
  mode : JournalMode
  durability : DurabilitySupport
  /-- The size that a new journal is grown to. -/
  initialSize : UInt64
deriving DecidableEq

namespace JournalOptions

/-- The size that a new journal is grown to by default. -/
def defaultInitialSize : UInt64 := 65536

/-- The options that hold where nothing else is said. -/
def standard : JournalOptions := ⟨.durable, .supported, defaultInitialSize⟩

instance : Inhabited JournalOptions := ⟨standard⟩

/-- The options keep the contract of opening. -/
def isValid (o : JournalOptions) : Bool := o.initialSize != 0

/-- The text of options, with the names of their fields. -/
def describe (o : JournalOptions) : String :=
  s!"JournalOptions \x7b mode: {o.mode.name}, durability: {o.durability.name}, " ++
    s!"initial_size: {o.initialSize} \x7d"

end JournalOptions

/-- What is said of options that break the contract of opening. -/
def zeroSizeMessage : String := "initial_size must be greater than zero"

namespace Journal

/-- Opens a journal for writing with options. -/
def openWithOptions (t : Features) (path : Path) (o : JournalOptions) :
    StepProgram (Outcome (Handle × Nat)) :=
  openForWrite t path o.mode o.initialSize o.durability

end Journal

end WriteAhead
