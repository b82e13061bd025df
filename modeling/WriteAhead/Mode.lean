/-
# Durability modes

How hard a journal's writes are forced to stable storage, and the flags that a file is opened
with to get there.
-/

namespace WriteAhead

/-- How hard journal writes are forced to stable storage. -/
inductive JournalMode where
  /-- Nothing is forced. -/
  | danger
  /-- An ephemeral journal, removed when it is closed. -/
  | pureMemory
  /-- Unbuffered and synchronous writes. -/
  | durable
deriving DecidableEq, Repr

/-- Whether the storage honours unbuffered transfers. -/
inductive DurabilitySupport where
  | supported
  | notSupported
deriving DecidableEq, Repr

namespace JournalMode

instance : Inhabited JournalMode := ⟨durable⟩

/-- The name of a mode in events. -/
def name : JournalMode → String
  | danger => "Danger"
  | pureMemory => "PureMemory"
  | durable => "Durable"

/-- The key of a mode in files, variables and serialised options. -/
def key : JournalMode → String
  | danger => "danger"
  | pureMemory => "pure_memory"
  | durable => "durable"

/-- All modes, in the order in which messages list them. -/
def all : List JournalMode := [danger, pureMemory, durable]

/-- The mode with a given key. -/
def ofKey? (k : String) : Option JournalMode :=
  all.find? (·.key == k)

theorem ofKey?_key (m : JournalMode) : ofKey? m.key = some m := by
  cases m <;> decide +kernel

end JournalMode

namespace DurabilitySupport

instance : Inhabited DurabilitySupport := ⟨supported⟩

/-- The name of a support level in events. -/
def name : DurabilitySupport → String
  | supported => "Supported"
  | notSupported => "NotSupported"

/-- The key of a support level in files, variables and serialised options. -/
def key : DurabilitySupport → String
  | supported => "supported"
  | notSupported => "not_supported"

/-- All support levels, in the order in which messages list them. -/
def all : List DurabilitySupport := [supported, notSupported]

/-- The support level with a given key. -/
def ofKey? (k : String) : Option DurabilitySupport :=
  all.find? (·.key == k)

theorem ofKey?_key (s : DurabilitySupport) : ofKey? s.key = some s := by
  cases s <;> decide +kernel

end DurabilitySupport

/-! ## Open flags -/

/-- The flags that a file is opened for writing with. -/
structure OpenFlags where
  /-- Transfers bypass the page cache. -/
  unbuffered : Bool
  /-- A write returns only once the data is on stable storage. -/
  synchronous : Bool
  /-- The file is removed from its directory when it is closed. -/
  deleteOnClose : Bool
deriving DecidableEq, Repr

namespace OpenFlags

/-- No flags at all. -/
def none : OpenFlags := ⟨false, false, false⟩

/-- Full durability: unbuffered and synchronous. -/
def durable : OpenFlags := ⟨true, true, false⟩

/-- The flags for a journal in a mode, on storage of a given support. -/
def forJournal : JournalMode → DurabilitySupport → OpenFlags
  | .danger, _ => none
  | .pureMemory, _ => { none with deleteOnClose := true }
  | .durable, .supported => durable
  | .durable, .notSupported => { none with synchronous := true }

theorem deleteOnClose_forJournal (m : JournalMode) (s : DurabilitySupport) :
    (forJournal m s).deleteOnClose = decide (m = .pureMemory) := by
  cases m <;> cases s <;> rfl

theorem unbuffered_forJournal (m : JournalMode) (s : DurabilitySupport) :
    (forJournal m s).unbuffered = decide (m = .durable ∧ s = .supported) := by
  cases m <;> cases s <;> rfl

theorem synchronous_forJournal (m : JournalMode) (s : DurabilitySupport) :
    (forJournal m s).synchronous = decide (m = .durable) := by
  cases m <;> cases s <;> rfl

end OpenFlags

end WriteAhead
