/-
# Loading options

Options come from three layers of settings: the standard ones, those of a file if one is named,
and those of environment variables.  Each layer is laid over the ones before it; then every field
is converted from the one setting that is left for it.

* `wordOf_integer` : whole numbers as sizes.
-/
import WriteAhead.Options.Basic
import WriteAhead.Settings.File
import WriteAhead.Settings.KeyPath
import WriteAhead.Settings.Variables
import WriteAhead.Text.Quoted

namespace WriteAhead

/-! ## Errors -/

/-- A field whose setting chooses one of several keys. -/
inductive ChoiceField where
  | mode
  | durability
deriving DecidableEq, Repr

namespace ChoiceField

/-- The name of a field in settings. -/
def name : ChoiceField → String
  | mode => "mode"
  | durability => "durability"

/-- The name of what a field chooses from. -/
def choiceName : ChoiceField → String
  | mode => "JournalMode"
  | durability => "DurabilitySupport"

end ChoiceField

/-- Why no options could be loaded. -/
inductive LoadError where
  | missingFile (path : Path)
  | badFile (name : String) (fault : FileFault)
  /-- The setting of the size is none. -/
  | wrongSize (found : Setting)
  /-- A key that none of the choices has. -/
  | unknownChoice (field : ChoiceField) (key : String)
  /-- A setting that is no key. -/
  | wrongChoice (field : ChoiceField)

/-- Why there are no options to open a journal with. -/
inductive OptionsError where
  | load (error : LoadError)
  /-- The options break the contract of opening. -/
  | invalid

/-- The name of the size in settings. -/
def sizeFieldName : String := "initial_size"

/-- The text for an origin at the end of a message. -/
def Origin.message : Option Origin → String
  | some .environment => " in the environment"
  | some (.file name) => " in " ++ name
  | none => ""

namespace LoadError

/-- What a setting is called that is no size, what was expected instead, and its origin. -/
def sizeMismatch : Setting → String × String × Option Origin
  | .vacant => ("unit value", "an integer", none)
  | .plain (.boolean b) o => (s!"boolean `{b}`", "an integer", o)
  | .plain (.integer n) o =>
    (s!"64-bit integer `{n}`", "an unsigned 64 bit or less integer", o)
  | .plain (.number _) o => ("floating point", "an integer", o)
  | .plain (.text t) o => ("string " ++ Text.quoted t, "an integer", o)
  | .list _ o => ("sequence", "an integer", o)
  | .table _ => ("map", "an integer", none)

/-- The text of an error. -/
def message : LoadError → String
  | missingFile p =>
    "configuration file " ++ Text.doubleQuote.toString ++ p.toText ++ Text.doubleQuote.toString ++
      " not found"
  | badFile _ .notDocument => "the file is no document"
  | badFile name (.number fault) => fault.message ++ Origin.message (some (.file name))
  | wrongSize found =>
    let (what, expected, origin) := sizeMismatch found
    s!"invalid type: {what}, expected {expected} for key `{sizeFieldName}`" ++
      Origin.message origin
  | unknownChoice f key =>
    s!"enum {f.choiceName} does not have variant constructor {key} for key `{f.name}`"
  | wrongChoice f =>
    s!"value of enum {f.choiceName} should be represented by either string or table with " ++
      s!"exactly one key for key `{f.name}`"

end LoadError

/-- The text of an error. -/
def OptionsError.message : OptionsError → String
  | load e => "failed to load journal options: " ++ e.message
  | invalid => "invalid journal options: " ++ zeroSizeMessage

/-! ## Fields from settings -/

namespace Setting

/-- The size that a text spells, or that it means as an answer to a question. -/
def wordOfText (text : String) : Option UInt64 :=
  let answer := Text.lower text
  if answer = "true" ∨ answer = "on" ∨ answer = "yes" then some 1
  else if answer = "false" ∨ answer = "off" ∨ answer = "no" then some 0
  else
    match Decimal.readNatural text.toList with
    | some n => if n < 0x10000000000000000 then some (UInt64.ofNat n) else none
    | none => none

/-- The size that a plain setting gives: a whole number that is not negative, a truth value as one
or zero, any other number rounded and brought within the words, or a text of one of these. -/
def wordOfPlain : PlainSetting → Option UInt64
  | .boolean b => some (if b then 1 else 0)
  | .integer n => if 0 ≤ n then some (UInt64.ofNat n.toNat) else none
  | .number x => some x.toWord
  | .text t => wordOfText t

/-- The size that a setting gives. -/
def wordOf : Setting → Except LoadError UInt64
  | plain p o =>
    match wordOfPlain p with
    | some w => .ok w
    | none => .error (.wrongSize (plain p o))
  | s => .error (.wrongSize s)

theorem wordOf_integer (n : Nat) (o : Option Origin) :
    wordOf (.plain (.integer n) o) = .ok (UInt64.ofNat n) := by
  simp [wordOf, wordOfPlain]

/-- The key that a setting gives: a text, or the only name in a table. -/
def keyOf : Setting → Option String
  | plain (.text k) _ => some k
  | table [(k, _)] => some k
  | _ => none

/-- The one of the choices `all` whose key a setting gives. -/
def choiceOf {α : Type} (field : ChoiceField) (all : List α) (key : α → String) (s : Setting) :
    Except LoadError α :=
  match keyOf s with
  | none => .error (.wrongChoice field)
  | some k =>
    match all.find? (key · == k) with
    | some a => .ok a
    | none => .error (.unknownChoice field k)

end Setting

namespace JournalOptions

/-- The options as settings. -/
def toSettings (o : JournalOptions) : Settings :=
  [(ChoiceField.mode.name, .plain (.text o.mode.key) none),
    (ChoiceField.durability.name, .plain (.text o.durability.key) none),
    (sizeFieldName, .plain (.integer o.initialSize.toNat) none)]

/-- The options that settings give. -/
def ofSettings (s : Settings) : Except LoadError JournalOptions := do
  let mode ← (s.get ChoiceField.mode.name).choiceOf .mode JournalMode.all JournalMode.key
  let durability ← (s.get ChoiceField.durability.name).choiceOf .durability
    DurabilitySupport.all DurabilitySupport.key
  let size ← (s.get sizeFieldName).wordOf
  return ⟨mode, durability, size⟩

/-- Accepts options that keep the contract of opening. -/
def validate (o : JournalOptions) : Except OptionsError JournalOptions :=
  if o.isValid then .ok o else .error .invalid

end JournalOptions

/-! ## Loaders -/

/-- Where options are loaded from besides the standard ones. -/
structure OptionsLoader where
  /-- The file that must exist, if one is named. -/
  file : Option Path
  /-- What the names of variables start with, before an underscore. -/
  heading : String

namespace OptionsLoader

/-- The heading of variables where no other is given. -/
def standardHeading : String := "DURAJOURNAL"

/-- The loader that reads no file. -/
def standard : OptionsLoader := ⟨none, standardHeading⟩

instance : Inhabited OptionsLoader := ⟨standard⟩

/-- The settings of a layer laid over those below it. -/
def combine (layers : List Settings) : Settings := layers.foldl Settings.addAll []

/-- The settings of the loader's file. -/
def fileSettings (l : OptionsLoader) (t : FileTree) (cwd : Location) :
    Except LoadError Settings :=
  match l.file with
  | none => .ok []
  | some p =>
    match t.settingsFile? cwd p with
    | none => .error (.missingFile p)
    | some (found, bytes) =>
      let name := (found.relativeTo cwd).toText
      (Settings.ofFile name bytes).mapError (.badFile name)

/-- The options that the settings of a file and of variables give. -/
def optionsOf (fileSettings variableSettings : Settings) : Except OptionsError JournalOptions := do
  let layers := [JournalOptions.standard.toSettings, fileSettings, variableSettings]
  let o ← (JournalOptions.ofSettings (combine layers)).mapError .load
  o.validate

/-- Loads options from a tree and an environment. -/
def load (l : OptionsLoader) (t : FileTree) (cwd : Location) (env : Environment) :
    Except OptionsError JournalOptions := do
  let fromFile ← (l.fileSettings t cwd).mapError .load
  optionsOf fromFile (Settings.ofVariables l.heading env)

end OptionsLoader

/-- Loads options from a file, if one is named, and from the standard variables. -/
def JournalOptions.load (file : Option Path) (t : FileTree) (cwd : Location)
    (env : Environment) : Except OptionsError JournalOptions :=
  OptionsLoader.load { OptionsLoader.standard with file := file } t cwd env

end WriteAhead
