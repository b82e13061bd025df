/-
# Settings

Named values from several sources.  A setting remembers where it comes from as long as it is the
value that stood there; a table is put together from its sources and has no origin of its own.

* `find?_put` : the setting under each name after one was put there.
-/
import WriteAhead.Number.Binary64

namespace WriteAhead

/-- Where a setting comes from. -/
inductive Origin where
  | environment
  /-- A file, under the name that messages use. -/
  | file (name : String)
deriving DecidableEq, Repr

/-- A setting that contains no others. -/
inductive PlainSetting where
  | boolean (value : Bool)
  | integer (value : Int)
  | number (value : Binary64)
  | text (value : String)
deriving DecidableEq, Repr

/-- A value that has a name in some source. -/
inductive Setting where
  /-- A place in a list that nothing was put into. -/
  | vacant
  | plain (value : PlainSetting) (origin : Option Origin)
  | list (items : List Setting) (origin : Option Origin)
  | table (entries : List (String × Setting))

/-- Settings by name. -/
abbrev Settings : Type := List (String × Setting)

namespace Settings

/-- The setting under a name. -/
def find? (name : String) : Settings → Option Setting
  | [] => none
  | (k, v) :: rest => if k = name then some v else find? name rest

/-- The settings with one put under a name. -/
def put (name : String) (value : Setting) : Settings → Settings
  | [] => [(name, value)]
  | (k, v) :: rest =>
    if k = name then (name, value) :: rest else (k, v) :: put name value rest

/-- The setting under a name, or a vacant one. -/
def get (name : String) (s : Settings) : Setting := (s.find? name).getD .vacant

theorem find?_put (name other : String) (value : Setting) (s : Settings) :
    find? other (put name value s) = if other = name then some value else find? other s := by
  induction s with
  | nil => grind [put, find?]
  | cons x rest ih => grind [put, find?]

theorem get_put (name other : String) (value : Setting) (s : Settings) :
    get other (put name value s) = if other = name then value else get other s := by
  unfold get
  rw [find?_put]
  split <;> simp

end Settings

namespace Setting

/-- What a setting has under names; only a table has anything. -/
def entries : Setting → Settings
  | table es => es
  | _ => []

/-! ## Laying one setting over another -/

mutual

/-- Lays a setting over another.  A table is laid over a table name by name, and anything else
replaces what was there. -/
def overlay (below : Setting) : Setting → Setting
  | table es => .table (overlayEntries below.entries es)
  | above => above

/-- Lays settings over others, name by name. -/
def overlayEntries (below : List (String × Setting)) :
    List (String × Setting) → List (String × Setting)
  | [] => below
  | (k, v) :: rest =>
    overlayEntries (Settings.put k (overlay (Settings.get k below) v) below) rest

end

end Setting

end WriteAhead
