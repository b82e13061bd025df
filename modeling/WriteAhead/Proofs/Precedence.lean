/-
# Which settings count

Each option is made of one setting: that of its variable, or else that of the file, or else the
standard one.  Only this setting is converted and checked.  What it hides, and what other names
were given, can neither be an error nor change anything.

* `OptionsLoader.get_layered` : the setting that is left for a field;
* `OptionsLoader.load_eq_of_winners` : the options that are loaded.
-/
import WriteAhead.Proofs.Layers

namespace WriteAhead

/-! ## Options of settings -/

namespace JournalOptions

/-- The names of the settings that options are made of. -/
def fieldNames : List String :=
  [ChoiceField.mode.name, ChoiceField.durability.name, sizeFieldName]

theorem isLiteral_fieldNames : ∀ field ∈ fieldNames, KeyPath.IsLiteral field := by
  decide +kernel

theorem ofSettings_congr {s s' : Settings} (h : ∀ field ∈ fieldNames, s.get field = s'.get field) :
    ofSettings s = ofSettings s' := by
  unfold ofSettings
  rw [h ChoiceField.mode.name (by simp [fieldNames]),
    h ChoiceField.durability.name (by simp [fieldNames]), h sizeFieldName (by simp [fieldNames])]

theorem ofSettings_eq_ok_iff {s : Settings} {o : JournalOptions} :
    ofSettings s = .ok o ↔
      (s.get ChoiceField.mode.name).choiceOf .mode JournalMode.all JournalMode.key = .ok o.mode ∧
      (s.get ChoiceField.durability.name).choiceOf .durability DurabilitySupport.all
        DurabilitySupport.key = .ok o.durability ∧
      (s.get sizeFieldName).wordOf = .ok o.initialSize := by
  unfold ofSettings
  simp only [bind_eq_ok_iff]
  constructor
  · rintro ⟨mode, hmode, durability, hdurability, size, hsize, heq⟩
    obtain rfl := Except.ok.inj heq
    exact ⟨hmode, hdurability, hsize⟩
  · rintro ⟨hmode, hdurability, hsize⟩
    exact ⟨_, hmode, _, hdurability, _, hsize, rfl⟩

/-- The options that settings give, if they keep the contract of opening. -/
def checked (s : Settings) : Except OptionsError JournalOptions :=
  (ofSettings s).mapError .load >>= validate

theorem validate_eq_ok_iff {o o' : JournalOptions} :
    o.validate = .ok o' ↔ o = o' ∧ o'.initialSize ≠ 0 := by
  unfold validate isValid
  split
  · next h =>
    constructor
    · intro heq
      obtain rfl := Except.ok.inj heq
      exact ⟨rfl, by simpa using h⟩
    · rintro ⟨rfl, -⟩
      rfl
  · next h =>
    constructor
    · intro heq
      exact absurd heq (by simp)
    · rintro ⟨rfl, hsize⟩
      exact absurd hsize (by simpa using h)

theorem checked_eq_ok_iff {s : Settings} {o : JournalOptions} :
    checked s = .ok o ↔ ofSettings s = .ok o ∧ o.initialSize ≠ 0 := by
  unfold checked
  rw [bind_eq_ok_iff]
  simp only [mapError_eq_ok_iff, validate_eq_ok_iff]
  constructor
  · rintro ⟨o', ho', rfl, hsize⟩
    exact ⟨ho', hsize⟩
  · rintro ⟨ho, hsize⟩
    exact ⟨o, ho, rfl, hsize⟩

/-- Options are a tidy layer. -/
theorem tidy_toSettings (o : JournalOptions) : o.toSettings.Tidy where
  names := by
    show fieldNames.Nodup
    decide +kernel
  settings := by
    intro e he
    simp only [toSettings, List.mem_cons, List.not_mem_nil, or_false] at he
    rcases he with rfl | rfl | rfl <;> exact .plain _ _

theorem isLiteral_of_mem_toSettings (o : JournalOptions) :
    ∀ e ∈ o.toSettings, KeyPath.IsLiteral e.1 :=
  fun e he => isLiteral_fieldNames e.1 (List.mem_map.mpr ⟨e, he, rfl⟩)

theorem entries_get_toSettings (o : JournalOptions) (field : String) :
    (o.toSettings.get field).entries = [] := by
  simp only [toSettings, Settings.get, Settings.find?]
  split
  · rfl
  · split
    · rfl
    · split <;> rfl

end JournalOptions

/-! ## The setting that counts -/

namespace OptionsLoader

variable {l : OptionsLoader} {t : FileTree} {cwd : Location} {env : Environment}
  {fromFile : Settings}

/-- The setting that a variable gives a field, if one is set for it. -/
def fromVariable? (l : OptionsLoader) (env : Environment) (field : String) : Option Setting :=
  (env.find? fun v => Text.lower v.1 = Settings.headingText l.heading ++ field).map
    fun v => .plain (Settings.readText v.2) (some .environment)

/-- The setting that counts for a field. -/
def winner (l : OptionsLoader) (fromFile : Settings) (env : Environment) (field : String) :
    Setting :=
  (l.fromVariable? env field).getD
    ((fromFile.find? field).getD (JournalOptions.standard.toSettings.get field))

/-- The settings that count, by field. -/
def winners (l : OptionsLoader) (fromFile : Settings) (env : Environment) : Settings :=
  JournalOptions.fieldNames.map fun field => (field, l.winner fromFile env field)

theorem get_winners : ∀ field ∈ JournalOptions.fieldNames,
    (l.winners fromFile env).get field = l.winner fromFile env field := by
  intro field hfield
  simp only [JournalOptions.fieldNames, List.mem_cons, List.not_mem_nil, or_false] at hfield
  rcases hfield with rfl | rfl | rfl <;> rfl

/-- The settings of all layers, laid over each other. -/
def layered (l : OptionsLoader) (fromFile : Settings) (env : Environment) : Settings :=
  combine [JournalOptions.standard.toSettings, fromFile, Settings.ofVariables l.heading env]

theorem load_eq (hfile : l.fileSettings t cwd = .ok fromFile) :
    l.load t cwd env = JournalOptions.checked (l.layered fromFile env) := by
  unfold load
  rw [hfile]
  rfl

/-- What is left for a field when the layers are laid over each other. -/
theorem get_layered (hfile : fromFile.Tidy) (hkeys : ∀ e ∈ fromFile, KeyPath.IsLiteral e.1)
    (hdistinct : Settings.DistinctVariables l.heading env)
    (hliteral : Settings.LiteralVariables l.heading env) {field : String}
    (hfield : KeyPath.IsLiteral field) :
    (l.layered fromFile env).get field = l.winner fromFile env field := by
  have hstandard : (Settings.addAll [] JournalOptions.standard.toSettings).get field =
      JournalOptions.standard.toSettings.get field :=
    Settings.get_addAll_of_tidy hfield (JournalOptions.tidy_toSettings _)
      (JournalOptions.isLiteral_of_mem_toSettings _) (s := []) rfl
  have hfromFile : (Settings.addAll (Settings.addAll [] JournalOptions.standard.toSettings)
      fromFile).get field =
        (fromFile.find? field).getD (JournalOptions.standard.toSettings.get field) := by
    have hbelow := JournalOptions.entries_get_toSettings JournalOptions.standard field
    rw [Settings.get_addAll_of_tidy hfield hfile hkeys (by rwa [hstandard]), hstandard]
  have hroot := Settings.eq_of_root_eq (Settings.isLiteral_of_mem_ofVariables hliteral) field
  show (Settings.addAll _ _).get field = _
  rw [Settings.get_addAll hfield (Settings.nodup_ofVariables _ _) hroot,
    Settings.find?_ofVariables, Settings.find?_reverse_of_distinct hdistinct hliteral]
  unfold winner fromVariable?
  cases env.find? fun v => Text.lower v.1 = Settings.headingText l.heading ++ field with
  | none => exact hfromFile
  | some v => rfl

/-- **Only the settings that count matter.**  Where the keys of the file and the names of the
variables spell no paths, and no two variables differ at most by case, the options that are loaded
are those of three settings: of the variables, or else of the file, or else the standard ones.
They are loaded if and only if each of these converts and the size is not zero. -/
theorem load_eq_of_winners (hfile : l.fileSettings t cwd = .ok fromFile)
    (hkeys : ∀ e ∈ fromFile, KeyPath.IsLiteral e.1)
    (hdistinct : Settings.DistinctVariables l.heading env)
    (hliteral : Settings.LiteralVariables l.heading env) :
    l.load t cwd env = JournalOptions.checked (l.winners fromFile env) ∧
      ∀ o, l.load t cwd env = .ok o ↔
        (l.winner fromFile env ChoiceField.mode.name).choiceOf .mode JournalMode.all
            JournalMode.key = .ok o.mode ∧
          (l.winner fromFile env ChoiceField.durability.name).choiceOf .durability
            DurabilitySupport.all DurabilitySupport.key = .ok o.durability ∧
          (l.winner fromFile env sizeFieldName).wordOf = .ok o.initialSize ∧
          o.initialSize ≠ 0 := by
  have hload : l.load t cwd env = JournalOptions.checked (l.winners fromFile env) := by
    have hsame : JournalOptions.ofSettings (l.layered fromFile env) =
        JournalOptions.ofSettings (l.winners fromFile env) :=
      JournalOptions.ofSettings_congr fun field hfield => by
        rw [get_layered (tidy_fileSettings hfile) hkeys hdistinct hliteral
          (JournalOptions.isLiteral_fieldNames field hfield), get_winners field hfield]
    rw [load_eq hfile, JournalOptions.checked, hsame, JournalOptions.checked]
  refine ⟨hload, fun o => ?_⟩
  rw [hload, JournalOptions.checked_eq_ok_iff, JournalOptions.ofSettings_eq_ok_iff]
  rw [get_winners _ (by simp [JournalOptions.fieldNames]),
    get_winners _ (by simp [JournalOptions.fieldNames]),
    get_winners _ (by simp [JournalOptions.fieldNames])]
  simp only [and_assoc]

/-- A file of one line for each option and one that is none. -/
def mistakenFile : FileTree :=
  (FileTree.empty.makeFile [[99]] (Content.ofBytes (Text.encode
    "mode = 5\ndurability = \"not_supported\"\ninitial_size = 0\nother = true\n"))).1

/-- Variables hide a mode that is no text and a size of zero in the file, so that the options can
be loaded all the same, with the support level of the file. -/
theorem load_eq_of_winners_mistakenFile :
    let l : OptionsLoader := ⟨some ⟨[99]⟩, "Wal"⟩
    let env := [("WAL_MODE", "pure_memory"), ("wal_Initial_Size", "7"), ("WAL_OTHER", "no")]
    let fromFile := (l.fileSettings mistakenFile []).toOption.getD []
    (l.fileSettings mistakenFile [] = .ok fromFile ∧
        (∀ e ∈ fromFile, KeyPath.IsLiteral e.1) ∧
        Settings.DistinctVariables l.heading env ∧ Settings.LiteralVariables l.heading env) ∧
      (l.load mistakenFile [] env).toOption = some ⟨.pureMemory, .notSupported, 7⟩ ∧
      l.load mistakenFile [] env = JournalOptions.checked (l.winners fromFile env) := by
  intro l env fromFile
  have hread : (l.fileSettings mistakenFile []).toOption.isSome = true := by decide +kernel
  have hfile : l.fileSettings mistakenFile [] = .ok fromFile := by
    obtain ⟨s, hs⟩ := Option.isSome_iff_exists.mp hread
    have hfromFile : fromFile = s := congrArg (·.getD []) hs
    rw [hfromFile, ← toOption_eq_some_iff, hs]
  have hkeys : ∀ e ∈ fromFile, KeyPath.IsLiteral e.1 := by decide +kernel
  have hdistinct : Settings.DistinctVariables l.heading env := by decide +kernel
  have hliteral : Settings.LiteralVariables l.heading env := by decide +kernel
  exact ⟨⟨hfile, hkeys, hdistinct, hliteral⟩, by decide +kernel,
    (load_eq_of_winners hfile hkeys hdistinct hliteral).1⟩

end OptionsLoader

end WriteAhead
