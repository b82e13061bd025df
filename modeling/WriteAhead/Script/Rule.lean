/-
# Scripted rules

A rule waits for a kind of action, counts how often it comes, and at one count, or at every one,
says that something else is to happen.  A list of rules is asked about each action in turn: all
rules that wait for it count it, and the first that is due speaks.
-/
import WriteAhead.Path

namespace WriteAhead

/-- A rule about actions of a kind `κ`, which says `α` when it is due. -/
structure Rule (κ α : Type) where
  kind : κ
  /-- The path that an action must concern, if only one. -/
  path : Option Path
  /-- The count at which the rule is due, if not at each. -/
  nth : Option Nat
  effect : α
  /-- The number of actions counted so far. -/
  seen : Nat

namespace Rule

variable {κ α : Type} [DecidableEq κ]

/-- The rule waits for an action of this kind on this path. -/
def concerns (r : Rule κ α) (k : κ) (p : Path) : Bool :=
  decide (r.kind = k) && (r.path.all (· = p))

/-- The rule with an action counted, if it waits for it. -/
def count (k : κ) (p : Path) (r : Rule κ α) : Rule κ α :=
  if r.concerns k p then { r with seen := r.seen + 1 } else r

/-- The rule is due, after the action was counted. -/
def isDue (r : Rule κ α) : Bool :=
  r.nth.all (· = r.seen)

/-- What the rules say about an action, and the rules after it. -/
def consult (k : κ) (p : Path) (rules : List (Rule κ α)) : Option α × List (Rule κ α) :=
  let counted := rules.map (count k p)
  ((counted.find? fun r => r.concerns k p && r.isDue).map (·.effect), counted)

end Rule

end WriteAhead
