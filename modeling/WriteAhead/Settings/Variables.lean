/-
# Settings from environment variables

Variables whose names start with a given heading, whatever their case, are settings: the rest of
the name is the setting's name, in which two underscores stand for a point, and the text is a
truth value or a number if it spells one.

* `nameOf?_eq_some_iff` : which variables are settings, and under which name.
-/
import WriteAhead.Number.Decimal
import WriteAhead.Settings.Basic
import WriteAhead.Text.Lowercase

namespace WriteAhead

/-- The variables of an environment, each name once. -/
abbrev Environment : Type := List (String × String)

namespace Environment

/-- The environment with a variable set, in its place if it was set before. -/
def set (name text : String) : Environment → Environment
  | [] => [(name, text)]
  | (k, v) :: rest => if k = name then (name, text) :: rest else (k, v) :: set name text rest

/-- The environment in which variables are set one after the other. -/
def ofList (env : List (String × String)) : Environment :=
  env.foldl (fun e v => e.set v.1 v.2) []

end Environment

/-! ## Names -/

namespace Settings

/-- What is left of a text after `front`, if it starts with that. -/
def after? (front text : List Char) : Option (List Char) :=
  if front.isPrefixOf text then some (text.drop front.length) else none

/-- The text with a point for each two underscores. -/
def pointed : List Char → List Char
  | '_' :: '_' :: rest => '.' :: pointed rest
  | c :: rest => c :: pointed rest
  | [] => []

/-- What a variable's name has to start with, in lower case. -/
def headingText (heading : String) : String := Text.lower (heading ++ "_")

/-- The name of the setting that a variable gives, if it gives one. -/
def nameOf? (heading v : String) : Option String :=
  (after? (headingText heading).toList (Text.lower v).toList).map fun rest =>
    String.ofList (pointed rest)

theorem nameOf?_eq_some_iff (heading v name : String) :
    nameOf? heading v = some name ↔
      ∃ rest, (Text.lower v).toList = (headingText heading).toList ++ rest ∧
        name = String.ofList (pointed rest) := by
  simp only [nameOf?, after?]
  constructor
  · intro h
    split at h
    · rename_i hp
      obtain ⟨rest, hr⟩ := List.isPrefixOf_iff_prefix.1 hp
      refine ⟨rest, hr.symm, ?_⟩
      rw [← hr] at h
      simpa [eq_comm] using h
    · simp at h
  · rintro ⟨rest, hr, rfl⟩
    simp [hr]

/-! ## Values -/

/-- The number fits in a signed word. -/
def isSignedWord (n : Int) : Bool := -0x8000000000000000 ≤ n && n < 0x8000000000000000

/-- The value that a variable's text spells. -/
def readText (text : String) : PlainSetting :=
  if Text.lower text = "true" then .boolean true
  else if Text.lower text = "false" then .boolean false
  else
    -- a whole number that is no signed word is read like one with a fraction
    match (Decimal.readInteger text.toList).filter isSignedWord with
    | some n => .integer n
    | none =>
      match Decimal.read text.toList with
      | some x => .number x.nearest
      | none => .text text

/-- The settings that variables give; of two with one name, the later one counts. -/
def ofVariables (heading : String) (env : Environment) : Settings :=
  env.foldl
    (fun s v =>
      match nameOf? heading v.1 with
      | some name => s.put name (.plain (readText v.2) (some .environment))
      | none => s)
    []

end Settings

end WriteAhead
