/-
# The forms of options in JSON

Options have one form in which they are written, and many from which they are read: an object that
leaves fields out or has others, in any order, or a list that ends early, and for a mode or a
support level its key or an object with this key.  All forms of the same options are read alike, so
that reading and writing brings each of them to the one form.

Main statements:

* `Json.readOptions_eq_ok_iff` : the forms from which options are read;
* `Json.readOptions_congr` : forms that give the same to the fields are read alike;
* `Json.readOptions_object_congr` : neither the order of fields nor an unknown field is of account;
* `Json.readOptions_normalises` : options survive being written and read, whatever form they had.
-/
import WriteAhead.Options.Json
import Mathlib.Data.List.Nodup

namespace WriteAhead

theorem JournalMode.key_injective : Function.Injective JournalMode.key := by
  intro m m' h
  exact Option.some.inj ((ofKey?_key m).symm.trans (h ▸ ofKey?_key m'))

theorem DurabilitySupport.key_injective : Function.Injective DurabilitySupport.key := by
  intro s s' h
  exact Option.some.inj ((ofKey?_key s).symm.trans (h ▸ ofKey?_key s'))

namespace Json

/-! ## The forms of a field -/

/-- A value stands for a key: it is the key, or an object whose only field has this name and holds
null. -/
inductive StandsFor (key : String) : Json → Prop where
  | string : StandsFor key (.string key)
  | object : StandsFor key (.object [(key, .null)])

theorem StandsFor.key_eq {key key' : String} {v : Json} (h : StandsFor key v)
    (h' : StandsFor key' v) : key' = key := by
  cases h <;> cases h' <;> rfl

section Variants

variable {α : Type} {all : List α} {key : α → String} {k : String} {a : α}

/-- Where keys tell the items of a list apart, a key finds the item that it belongs to. -/
theorem find?_key_eq_some_iff (hkey : ∀ a ∈ all, ∀ a' ∈ all, key a = key a' → a = a') :
    all.find? (key · == k) = some a ↔ a ∈ all ∧ key a = k := by
  constructor
  · intro h
    exact ⟨List.mem_of_find?_eq_some h, by simpa using List.find?_some h⟩
  · rintro ⟨ha, rfl⟩
    cases hfind : all.find? (key · == key a) with
    | none => exact absurd (beq_self_eq_true (key a)) (List.find?_eq_none.mp hfind a ha)
    | some a' =>
      have hsame : key a' = key a := by simpa using List.find?_some hfind
      rw [hkey a' (List.mem_of_find?_eq_some hfind) a ha hsame]

theorem readKey_eq_ok_iff (hall : ∀ a, a ∈ all) (hkey : Function.Injective key) :
    readKey all key k = .ok a ↔ key a = k := by
  have hfind : all.find? (key · == k) = some a ↔ key a = k := by
    rw [find?_key_eq_some_iff fun a _ a' _ h => hkey h]
    exact and_iff_right (hall a)
  unfold readKey
  rw [← hfind]
  cases all.find? (key · == k) <;> simp

/-- A variant is read from what stands for its key. -/
theorem readVariant_eq_ok_iff (hall : ∀ a, a ∈ all) (hkey : Function.Injective key) {v : Json} :
    readVariant all key v = .ok a ↔ StandsFor (key a) v := by
  constructor
  · intro h
    unfold readVariant at h
    split at h
    · obtain rfl := (readKey_eq_ok_iff hall hkey).mp h
      exact .string
    · next k held =>
      obtain ⟨a', ha', hheld⟩ := bind_eq_ok_iff.mp h
      obtain rfl := (readKey_eq_ok_iff hall hkey).mp ha'
      cases held with
      | null =>
        obtain rfl := Except.ok.inj hheld
        exact .object
      | boolean | integer | float | string | list | object => exact absurd hheld throw_ne_ok
    · exact absurd h throw_ne_ok
    · exact absurd h throw_ne_ok
  · have hread : readKey all key (key a) = .ok a := (readKey_eq_ok_iff hall hkey).mpr rfl
    rintro (_ | _)
    · exact hread
    · exact bind_eq_ok_iff.mpr ⟨a, hread, rfl⟩

end Variants

theorem readMode_eq_ok_iff {v : Json} {m : JournalMode} :
    readMode v = .ok m ↔ StandsFor m.key v :=
  readVariant_eq_ok_iff (fun m => by cases m <;> simp [JournalMode.all])
    JournalMode.key_injective

theorem readSupport_eq_ok_iff {v : Json} {s : DurabilitySupport} :
    readSupport v = .ok s ↔ StandsFor s.key v :=
  readVariant_eq_ok_iff (fun s => by cases s <;> simp [DurabilitySupport.all])
    DurabilitySupport.key_injective

/-- A word is read from its number and from nothing else. -/
theorem readWord_eq_ok_iff {v : Json} {n : UInt64} :
    readWord v = .ok n ↔ v = .integer n.toNat := by
  constructor
  · intro h
    unfold readWord at h
    split at h
    · split at h
      · next k hk =>
        obtain rfl := Except.ok.inj h
        rw [UInt64.toNat_ofNat_of_lt' hk]
        rfl
      · exact absurd h (by simp)
    · exact absurd h (by simp)
    · exact absurd h (by simp)
  · rintro rfl
    have hword : n.toNat < 0x10000000000000000 := n.toNat_lt
    show (if n.toNat < 0x10000000000000000 then _ else _) = _
    rw [if_pos hword, UInt64.ofNat_toNat]

/-- A field is filled by what it is given, if that has the right form; a field that is given nothing
is filled by its default. -/
def Filled (form : Json → Prop) (byDefault : Prop) : Option Json → Prop
  | some v => form v
  | none => byDefault

theorem readOr_eq_ok_iff {α : Type} {read : Json → Except JsonError α} {standard a : α}
    {form : Json → Prop} (hread : ∀ {v}, read v = .ok a ↔ form v) {given : Option Json} :
    readOr read standard given = .ok a ↔ Filled form (a = standard) given := by
  cases given with
  | none => simp [readOr, Filled, eq_comm]
  | some v => exact hread

/-! ## The forms of options -/

/-- What is given to the fields of options. -/
structure Given where
  mode : Option Json
  durability : Option Json
  initialSize : Option Json

/-- What a value gives to the fields: an object gives to each what it has under the field's name,
and a list of at most three items gives them in order. -/
inductive Gives : Json → Given → Prop where
  | object (fields : List (String × Json)) :
    Gives (.object fields)
      ⟨field? fields "mode", field? fields "durability", field? fields "initial_size"⟩
  | list (items : List Json) (hlength : items.length ≤ 3) :
    Gives (.list items) ⟨items[0]?, items[1]?, items[2]?⟩

/-- What is given to the fields describes options: each field is filled with their value. -/
structure Given.Describes (g : Given) (o : JournalOptions) : Prop where
  mode : Filled (StandsFor o.mode.key) (o.mode = JournalOptions.standard.mode) g.mode
  durability : Filled (StandsFor o.durability.key)
    (o.durability = JournalOptions.standard.durability) g.durability
  initialSize : Filled (· = integer o.initialSize.toNat)
    (o.initialSize = JournalOptions.standard.initialSize) g.initialSize

variable {v v' : Json} {g g' : Given} {o : JournalOptions}

theorem Given.describes_iff : g.Describes o ↔
    readOr readMode JournalOptions.standard.mode g.mode = .ok o.mode ∧
    readOr readSupport JournalOptions.standard.durability g.durability = .ok o.durability ∧
    readOr readWord JournalOptions.standard.initialSize g.initialSize = .ok o.initialSize := by
  rw [readOr_eq_ok_iff readMode_eq_ok_iff, readOr_eq_ok_iff readSupport_eq_ok_iff,
    readOr_eq_ok_iff readWord_eq_ok_iff]
  exact ⟨fun h => ⟨h.mode, h.durability, h.initialSize⟩, fun ⟨hm, hd, hs⟩ => ⟨hm, hd, hs⟩⟩

/-- What gives something to the fields is read as the options that this describes. -/
theorem Gives.readOptions_eq_ok_iff (h : Gives v g) : readOptions v = .ok o ↔ g.Describes o := by
  rw [Given.describes_iff]
  -- an object is read in the order of its names and a list in the order of the fields
  cases h with
  | object fields =>
    simp only [readOptions, bind_eq_ok_iff]
    constructor
    · rintro ⟨durability, hdurability, size, hsize, mode, hmode, h⟩
      obtain rfl := Except.ok.inj h
      exact ⟨hmode, hdurability, hsize⟩
    · rintro ⟨hmode, hdurability, hsize⟩
      exact ⟨_, hdurability, _, hsize, _, hmode, rfl⟩
  | list items hlength =>
    simp only [readOptions, bind_eq_ok_iff, if_neg (Nat.not_lt.mpr hlength)]
    constructor
    · rintro ⟨mode, hmode, durability, hdurability, size, hsize, h⟩
      obtain rfl := Except.ok.inj h
      exact ⟨hmode, hdurability, hsize⟩
    · rintro ⟨hmode, hdurability, hsize⟩
      exact ⟨_, hmode, _, hdurability, _, hsize, rfl⟩

/-- Only what gives something to the fields is read. -/
theorem exists_gives (h : readOptions v = .ok o) : ∃ g, Gives v g := by
  cases v with
  | object fields => exact ⟨_, .object fields⟩
  | list items =>
    simp only [readOptions, bind_eq_ok_iff] at h
    obtain ⟨_, _, _, _, _, _, h⟩ := h
    split at h
    · exact absurd h throw_ne_ok
    · next hlength => exact ⟨_, .list items (Nat.not_lt.mp hlength)⟩
  | null | boolean | integer | float | string => exact absurd h throw_ne_ok

/-- The values from which options are read. -/
theorem readOptions_eq_ok_iff : readOptions v = .ok o ↔ ∃ g, Gives v g ∧ g.Describes o := by
  constructor
  · intro h
    obtain ⟨g, hg⟩ := exists_gives h
    exact ⟨g, hg, hg.readOptions_eq_ok_iff.mp h⟩
  · rintro ⟨g, hg, hdescribes⟩
    exact hg.readOptions_eq_ok_iff.mpr hdescribes

example : readOptions (object [("size", null), ("durability", object [("not_supported", null)])]) =
    .ok ⟨.durable, .notSupported, 65536⟩ := rfl

theorem gives_ofOptions (o : JournalOptions) : Gives (ofOptions o)
    ⟨some (string o.mode.key), some (string o.durability.key),
      some (integer o.initialSize.toNat)⟩ :=
  .object _

theorem readOptions_ofOptions (o : JournalOptions) : readOptions (ofOptions o) = .ok o :=
  (gives_ofOptions o).readOptions_eq_ok_iff.mpr ⟨.string, .string, rfl⟩

/-! ## Forms that are read alike -/

/-- Two givings to a field are alike: the same, or forms of one key. -/
inductive Alike : Option Json → Option Json → Prop where
  | same (given : Option Json) : Alike given given
  | forms {key : String} {v v' : Json} (h : StandsFor key v) (h' : StandsFor key v') :
    Alike (some v) (some v')

theorem Alike.symm {given given' : Option Json} (h : Alike given given') : Alike given' given := by
  cases h with
  | same => exact .same given
  | forms h h' => exact .forms h' h

theorem Alike.filled_key {given given' : Option Json} (h : Alike given given') {key : String}
    {byDefault : Prop} (hfilled : Filled (StandsFor key) byDefault given) :
    Filled (StandsFor key) byDefault given' := by
  cases h with
  | same => exact hfilled
  | forms h h' => exact h.key_eq hfilled ▸ h'

theorem Alike.filled_integer {given given' : Option Json} (h : Alike given given') {n : Int}
    {byDefault : Prop} (hfilled : Filled (· = integer n) byDefault given) :
    Filled (· = integer n) byDefault given' := by
  cases h with
  | same => exact hfilled
  | forms h => cases h <;> cases hfilled

/-- The same is given to the same fields. -/
structure Given.SameAs (g g' : Given) : Prop where
  mode : Alike g.mode g'.mode
  durability : Alike g.durability g'.durability
  initialSize : Alike g.initialSize g'.initialSize

theorem Given.SameAs.symm (h : g.SameAs g') : g'.SameAs g :=
  ⟨h.mode.symm, h.durability.symm, h.initialSize.symm⟩

theorem Given.SameAs.describes (h : g.SameAs g') (ho : g.Describes o) : g'.Describes o :=
  ⟨h.mode.filled_key ho.mode, h.durability.filled_key ho.durability,
    h.initialSize.filled_integer ho.initialSize⟩

/-- What gives the same to the same fields is read as the same options, be it an object or a
list. -/
theorem readOptions_congr (h : Gives v g) (h' : Gives v' g') (hsame : g.SameAs g') :
    readOptions v = .ok o ↔ readOptions v' = .ok o := by
  rw [h.readOptions_eq_ok_iff, h'.readOptions_eq_ok_iff]
  exact ⟨hsame.describes, hsame.symm.describes⟩

/-! ## The fields of an object -/

variable {fields fields' : List (String × Json)} {name : String}

/-- Where no two fields have one name, a field is found wherever it stands. -/
theorem field?_eq_some_iff (hnames : (fields.map Prod.fst).Nodup) :
    field? fields name = some v ↔ (name, v) ∈ fields := by
  have hkey : ∀ f ∈ fields.reverse, ∀ f' ∈ fields.reverse, f.1 = f'.1 → f = f' :=
    fun f hf f' hf' h =>
      List.inj_on_of_nodup_map hnames (List.mem_reverse.mp hf) (List.mem_reverse.mp hf') h
  simp only [field?, Option.map_eq_some_iff, find?_key_eq_some_iff hkey, List.mem_reverse]
  constructor
  · rintro ⟨_, ⟨hmem, rfl⟩, rfl⟩
    exact hmem
  · intro hmem
    exact ⟨_, ⟨hmem, rfl⟩, rfl⟩

/-- The order of the fields is of no account, and neither is a field of another name. -/
theorem readOptions_object_congr (hnames : (fields.map Prod.fst).Nodup)
    (hnames' : (fields'.map Prod.fst).Nodup)
    (hsame : ∀ name ∈ ["mode", "durability", "initial_size"], ∀ v,
      (name, v) ∈ fields ↔ (name, v) ∈ fields') :
    readOptions (object fields) = readOptions (object fields') := by
  have hfield : ∀ name ∈ ["mode", "durability", "initial_size"],
      field? fields name = field? fields' name := by
    intro name hname
    refine Option.ext fun v => ?_
    rw [field?_eq_some_iff hnames, field?_eq_some_iff hnames', hsame name hname]
  simp only [readOptions, hfield "mode" (by simp), hfield "durability" (by simp),
    hfield "initial_size" (by simp)]

/-- **The forms of options.**  Written options are read as themselves.  What is accepted is exactly
what gives to each field a form of its value, or nothing, in which case the value is the default;
the options read from it are written in a form that is accepted and gives them again.  Objects and
lists that give the same to the same fields are read as the same options, and an object is read
alike in any order of its fields and with any others beside them. -/
theorem readOptions_normalises :
    (∀ o, readOptions (ofOptions o) = .ok o) ∧
    (∀ v o, readOptions v = .ok o ↔ ∃ g, Gives v g ∧ g.Describes o) ∧
    (∀ v g o, Gives v g → readOptions v = .ok o →
      (g.mode = none → o.mode = .durable) ∧
      (g.durability = none → o.durability = .supported) ∧
      (g.initialSize = none → o.initialSize = 65536) ∧
      readOptions (ofOptions o) = .ok o) ∧
    (∀ v v' g g', Gives v g → Gives v' g' → g.SameAs g' →
      ∀ o, readOptions v = .ok o ↔ readOptions v' = .ok o) ∧
    ∀ fields fields' : List (String × Json),
      (fields.map Prod.fst).Nodup → (fields'.map Prod.fst).Nodup →
      (∀ name ∈ ["mode", "durability", "initial_size"], ∀ v,
        (name, v) ∈ fields ↔ (name, v) ∈ fields') →
      readOptions (object fields) = readOptions (object fields') := by
  refine ⟨readOptions_ofOptions, fun v o => readOptions_eq_ok_iff, fun v g o hgives h => ?_,
    fun v v' g g' h h' hsame o => readOptions_congr h h' hsame,
    fun fields fields' => readOptions_object_congr⟩
  have hdescribes := hgives.readOptions_eq_ok_iff.mp h
  refine ⟨fun hnone => ?_, fun hnone => ?_, fun hnone => ?_, readOptions_ofOptions o⟩
  · have hmode := hdescribes.mode
    rwa [hnone] at hmode
  · have hdurability := hdescribes.durability
    rwa [hnone] at hdurability
  · have hsize := hdescribes.initialSize
    rwa [hnone] at hsize

end Json

end WriteAhead
