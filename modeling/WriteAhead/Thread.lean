/-
# Thread numbers

The system gives each thread of a program a number when it starts, and the thread keeps it.

* `number_pos`, `number_inj` : numbers are positive, and no two threads share one.
-/

namespace WriteAhead

/-- A group of threads, numbered upwards from the one that it started with. -/
structure ThreadGroup where
  /-- The number of the first thread. -/
  first : Nat
  /-- How many threads there have been. -/
  started : Nat
  first_pos : 0 < first
  started_pos : 0 < started

namespace ThreadGroup

/-- A thread of a group, by the order in which they started. -/
abbrev Thread (p : ThreadGroup) : Type := Fin p.started

/-- The group whose first thread has just started. -/
def start (first : Nat) (h : 0 < first) : ThreadGroup := ⟨first, 1, h, Nat.one_pos⟩

/-- The group after one more thread has started. -/
def spawn (p : ThreadGroup) : ThreadGroup :=
  { p with started := p.started + 1, started_pos := Nat.succ_pos _ }

/-- The number that a thread is told when it asks for its own. -/
def number (p : ThreadGroup) (t : p.Thread) : Nat := p.first + t

theorem number_pos (p : ThreadGroup) (t : p.Thread) : 0 < p.number t :=
  Nat.lt_of_lt_of_le p.first_pos (Nat.le_add_right _ _)

theorem number_inj (p : ThreadGroup) {t u : p.Thread} (h : p.number t = p.number u) : t = u :=
  Fin.ext (Nat.add_left_cancel h)

end ThreadGroup

end WriteAhead
