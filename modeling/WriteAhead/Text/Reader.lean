/-
# Reading text piece by piece

A reader takes some characters off the front of a text, or refuses it.  Readers are joined one
after the other, as alternatives, and by repetition.

* `bind_apply`, `map_apply` : what joined readers take;
* `many_of_none` : what a reader refuses is left alone by its repetition.
-/

namespace WriteAhead.Text

/-- Takes a value off the front of a text and leaves the rest, or refuses the text. -/
abbrev Reader (α : Type) : Type := StateT (List Char) Option α

namespace Reader

variable {α β : Type}

/-! ## Joining readers -/

@[simp] theorem pure_apply (a : α) (cs : List Char) : (pure a : Reader α) cs = some (a, cs) := rfl

@[simp] theorem bind_apply (r : Reader α) (f : α → Reader β) (cs : List Char) :
    (r >>= f) cs = (r cs).bind fun x => f x.1 x.2 := rfl

@[simp] theorem map_apply (f : α → β) (r : Reader α) (cs : List Char) :
    (f <$> r) cs = (r cs).map fun x => (f x.1, x.2) := by
  change (r cs).bind _ = _
  cases r cs <;> rfl

/-! ## Characters -/

/-- Takes one character of a class. -/
def satisfying (p : Char → Bool) : Reader Char
  | c :: rest => if p c then some (c, rest) else none
  | [] => none

/-- Takes one given character. -/
def char (c : Char) : Reader Unit
  | d :: rest => if d = c then some ((), rest) else none
  | [] => none

/-- Takes the longest run of characters of a class, which may be empty. -/
def run (p : Char → Bool) : Reader (List Char) := fun cs => some (cs.takeWhile p, cs.dropWhile p)

/-- Takes the longest run of characters of a class, and at least one. -/
def run1 (p : Char → Bool) : Reader (List Char) := fun cs =>
  match cs.takeWhile p with
  | [] => none
  | taken => some (taken, cs.dropWhile p)

/-- Takes a given row of characters. -/
def row : List Char → Reader (List Char)
  | [] => pure []
  | c :: cs => do
    char c
    return c :: (← row cs)

/-- Takes `count` characters of a class. -/
def exactly (p : Char → Bool) : (count : Nat) → Reader (List Char)
  | 0 => pure []
  | n + 1 => do return (← satisfying p) :: (← exactly p n)

/-! ## Repetition -/

/-- Takes what a reader takes, or nothing. -/
def optional (r : Reader α) : Reader (Option α) := (some <$> r) <|> pure none

/-- Accepts the end of the text only. -/
def finished : Reader Unit
  | [] => some ((), [])
  | _ => none

/-- Takes what a reader takes, at most `bound` times. -/
def manyUpTo (r : Reader α) : (bound : Nat) → Reader (List α)
  | 0, cs => some ([], cs)
  | bound + 1, cs =>
    match r cs with
    | none => some ([], cs)
    | some (a, rest) => (manyUpTo r bound rest).map fun x => (a :: x.1, x.2)

/-- Takes what a reader takes as often as it can.  A reader that takes at least one character can
do so at most once for each character of the text. -/
def many (r : Reader α) : Reader (List α) := fun cs => manyUpTo r cs.length cs

theorem many_of_none (r : Reader α) (cs : List Char) (h : r cs = none) :
    many r cs = some ([], cs) := by
  unfold many
  cases cs <;> simp [manyUpTo, h]

/-- What a reader makes of a whole text. -/
def whole (r : Reader α) (cs : List Char) : Option α :=
  match r cs with
  | some (a, []) => some a
  | _ => none

end Reader

end WriteAhead.Text
