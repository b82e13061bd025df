/-
# The JSON form of options

Options are written as an object with one key for each field, modes and support levels as their
keys.  Reading takes more than writing gives: a missing field has its default, an unknown one is
ignored, a list gives the fields in order, and a key may stand as the only key of an object.
-/
import WriteAhead.Number.Shortest
import WriteAhead.Options.Basic

namespace WriteAhead

/-- A JSON value; numbers are words, signed words or floating-point numbers. -/
inductive Json where
  | null
  | boolean (value : Bool)
  | integer (value : Int)
  | float (value : Binary64)
  | string (text : String)
  | list (items : List Json)
  | object (fields : List (String × Json))

namespace Json

/-- The value of a field of an object; of fields with one name, the last. -/
def field? (fields : List (String × Json)) (name : String) : Option Json :=
  (fields.reverse.find? (·.1 == name)).map (·.2)

/-- How a value is named where another was expected. -/
def described : Json → String
  | null => "null"
  | boolean b => s!"boolean `{b}`"
  | integer n => s!"integer `{n}`"
  | float x => s!"floating point `{x.toText}`"
  | string s => "string " ++ Text.quoted s
  | list _ => "sequence"
  | object _ => "map"

end Json

/-! ## Errors -/

/-- Why a JSON value is not what was to be read. -/
inductive JsonError where
  /-- A key that names none of the variants. -/
  | unknownVariant (key : String) (known : List String)
  | invalidType (found : Json) (expected : String)
  | invalidValue (found : Json) (expected : String)
  /-- A list with too many items. -/
  | tooLong (length : Nat)

namespace JsonError

/-- A name in the quotes that messages use. -/
def ticked (s : String) : String := "`" ++ s ++ "`"

/-- The list of known keys in a message. -/
def alternatives : List String → String
  | [a, b] => "expected " ++ ticked a ++ " or " ++ ticked b
  | known => "expected one of " ++ ", ".intercalate (known.map ticked)

/-- The text of an error. -/
def message : JsonError → String
  | unknownVariant key known => "unknown variant " ++ ticked key ++ ", " ++ alternatives known
  | invalidType found expected => s!"invalid type: {found.described}, expected {expected}"
  | invalidValue found expected => s!"invalid value: {found.described}, expected {expected}"
  | tooLong n => s!"invalid length {n}, expected fewer elements in array"

end JsonError

/-! ## Reading -/

namespace Json

/-- Reads a key as one of the variants `all`. -/
def readKey {α : Type} (all : List α) (key : α → String) (k : String) : Except JsonError α :=
  match all.find? (key · == k) with
  | some a => .ok a
  | none => .error (.unknownVariant k (all.map key))

/-- Reads a value as one of the variants `all`: its key, or an object whose only field has that
name and holds null. -/
def readVariant {α : Type} (all : List α) (key : α → String) : Json → Except JsonError α
  | string k => readKey all key k
  | object [(k, v)] => do
    let a ← readKey all key k
    match v with
    | null => return a
    | v => throw (.invalidType v "unit")
  | object fields => throw (.invalidValue (object fields) "map with a single key")
  | v => throw (.invalidType v "string or map")

/-- Reads a value as a mode. -/
def readMode : Json → Except JsonError JournalMode :=
  readVariant JournalMode.all JournalMode.key

/-- Reads a value as a support level. -/
def readSupport : Json → Except JsonError DurabilitySupport :=
  readVariant DurabilitySupport.all DurabilitySupport.key

/-- Reads a value as a 64-bit word. -/
def readWord : Json → Except JsonError UInt64
  | integer (.ofNat n) =>
    if n < 0x10000000000000000 then .ok (UInt64.ofNat n)
    else .error (.invalidValue (integer n) "u64")
  | integer n => .error (.invalidValue (integer n) "u64")
  | v => .error (.invalidType v "u64")

/-- Reads a value if there is one. -/
def readOr {α : Type} (read : Json → Except JsonError α) (default : α) :
    Option Json → Except JsonError α
  | some v => read v
  | none => .ok default

/-- Reads a value as options. -/
def readOptions : Json → Except JsonError JournalOptions
  | object fields => do
    let durability ← readOr readSupport JournalOptions.standard.durability
      (field? fields "durability")
    let size ← readOr readWord JournalOptions.standard.initialSize (field? fields "initial_size")
    let mode ← readOr readMode JournalOptions.standard.mode (field? fields "mode")
    return ⟨mode, durability, size⟩
  | list items => do
    let mode ← readOr readMode JournalOptions.standard.mode items[0]?
    let durability ← readOr readSupport JournalOptions.standard.durability items[1]?
    let size ← readOr readWord JournalOptions.standard.initialSize items[2]?
    -- the fields are read first, so that a wrong one is reported before the length
    if 3 < items.length then throw (.tooLong items.length)
    else return ⟨mode, durability, size⟩
  | v => throw (.invalidType v "struct JournalOptions")

/-! ## Writing -/

/-- The JSON form of options. -/
def ofOptions (o : JournalOptions) : Json :=
  object [("mode", string o.mode.key), ("durability", string o.durability.key),
    ("initial_size", integer o.initialSize.toNat)]

end Json

end WriteAhead
