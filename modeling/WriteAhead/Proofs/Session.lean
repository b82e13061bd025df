/-
# Sessions

A session is what a program does with journals: it opens them, each on one of several platforms,
uses them, and closes or drops them, in any order.  Journals are numbered in the order in which
they were asked for, so that a number names the same journal for the whole session, and an
operation on a journal that is not open any more does nothing.

* `run` : what a session records of each operation;
* `story` : what happened to one journal.
-/
import WriteAhead.Proofs.Requests
import WriteAhead.Script.Scenario

namespace WriteAhead

/-! ## Platforms -/

/-- A platform on a world `W`: what it says about itself, and how its steps are taken there by
requests of `I`. -/
structure Platform (I : Interface) (W : Type) where
  features : Features
  serve : (s : Step) → Program I Event s.Reply
  handler : Program.Handler I W

namespace Platform

variable {I : Interface} {W α : Type}

/-- Runs a journal program on a platform. -/
def run (x : Platform I W) (p : StepProgram α) (w : W) : Program.Run I Event W α :=
  (p.through x.serve).run x.handler w

/-- The platform that a handler of steps amounts to. -/
def ofHandler (t : Features) (h : Program.Handler Steps W) : Platform Steps W :=
  ⟨t, Step.take, h⟩

@[simp] theorem run_ofHandler (t : Features) (h : Program.Handler Steps W) (p : StepProgram α)
    (w : W) : (ofHandler t h).run p w = p.run h w := by
  have hserved : p.through (ofHandler t h).serve = p := Program.through_request p
  unfold run
  rw [hserved]
  rfl

end Platform

/-- The native platform of a POSIX machine whose calls a policy decides about. -/
def Posix.platform {φ : Type} (patience : Nat) (decide : Policy φ) :
    Platform System (Machine × φ) :=
  ⟨Features.posix, Posix.serve patience, decide.handler⟩

theorem Posix.run_platform {φ α : Type} (patience : Nat) (decide : Policy φ) (p : StepProgram α)
    (w : Machine × φ) :
    (Posix.platform patience decide).run p w = (Posix.native patience p).run decide.handler w := rfl

/-! ## Operations -/

/-- What a session can do.  Platforms and journals go by number. -/
inductive Operation where
  | openForWrite (on : Nat) (path : Path) (mode : JournalMode) (size : UInt64)
      (support : DurabilitySupport)
  | openForRead (on : Nat) (path : Path)
  | write (journal : Nat) (bytes : Bytes) (offset : UInt64)
  | read (journal : Nat) (buffer : Bytes) (offset : UInt64)
  | truncate (journal : Nat) (size : UInt64)
  | size (journal : Nat)
  | close (journal : Nat)
  | drop (journal : Nat)
deriving DecidableEq

/-- A journal that is open, and the number of its platform. -/
structure LiveJournal where
  on : Nat
  handle : Handle
deriving DecidableEq

/-- A session: the world, and the journals that were asked for so far.  One that could not be
opened, or was closed or dropped, is not there any more. -/
structure Session (W : Type) where
  world : W
  journals : List (Option LiveJournal)

namespace Session

variable {I : Interface} {W α : Type}

/-- What an operation leaves: the number of the journal that it was about, its answer, if the
journal was open, what happened meanwhile, and the session afterwards. -/
structure Record (I : Interface) (W : Type) where
  operation : Operation
  journal : Nat
  answer : Option (Outcome Answer)
  history : List (Program.Happening I Event)
  after : Session W

/-- The session in which nothing was done yet. -/
def start (w : W) : Session W := ⟨w, []⟩

/-- The journal with a number, if it is open. -/
def live? (s : Session W) (j : Nat) : Option LiveJournal := s.journals[j]?.join

theorem live?_eq_some {s : Session W} {j : Nat} {l : LiveJournal} (h : s.live? j = some l) :
    s.journals[j]? = some (some l) := by
  unfold live? at h
  exact Option.join_eq_some_iff.mp h

/-! ## One operation -/

/-- Records an attempt to open a journal on a platform. -/
def opened (s : Session W) (op : Operation) (on : Nat)
    (r : Program.Run I Event W (Outcome (Handle × Nat))) (answer : Nat → Answer) : Record I W :=
  match r.value with
  | .ok (h, n) =>
    ⟨op, s.journals.length, some (.ok (answer n)), r.history,
      ⟨r.world, s.journals ++ [some ⟨on, h⟩]⟩⟩
  | .error f =>
    ⟨op, s.journals.length, some (.error f), r.history, ⟨r.world, s.journals ++ [none]⟩⟩

/-- Does something with a journal that stays open. -/
def used (platforms : Nat → Platform I W) (s : Session W) (op : Operation) (j : Nat)
    (p : Handle → StepProgram α) (answer : α → Outcome Answer) : Record I W :=
  match s.live? j with
  | none => ⟨op, j, none, [], s⟩
  | some l =>
    let r := (platforms l.on).run (p l.handle) s.world
    ⟨op, j, some (answer r.value), r.history, ⟨r.world, s.journals⟩⟩

/-- Does something with a journal that is gone afterwards. -/
def ended (platforms : Nat → Platform I W) (s : Session W) (op : Operation) (j : Nat)
    (p : Features → Handle → StepProgram α) (answer : α → Outcome Answer) : Record I W :=
  match s.live? j with
  | none => ⟨op, j, none, [], s⟩
  | some l =>
    let r := (platforms l.on).run (p (platforms l.on).features l.handle) s.world
    ⟨op, j, some (answer r.value), r.history, ⟨r.world, s.journals.set j none⟩⟩

/-- Opens a journal for reading, as an attempt that yields no size. -/
def openReader (path : Path) : StepProgram (Outcome (Handle × Nat)) := do
  return Outcome.ofResult ((← Journal.openForRead path).map fun h => (h, 0))

/-- Carries out one operation. -/
def step (platforms : Nat → Platform I W) (s : Session W) (op : Operation) : Record I W :=
  match op with
  | .openForWrite on path mode size support =>
    s.opened op on ((platforms on).run
      (Journal.openForWrite (platforms on).features path mode size support) s.world) .number
  | .openForRead on path =>
    s.opened op on ((platforms on).run (openReader path) s.world) fun _ => .done
  | .write j bytes offset =>
    s.used platforms op j (·.write bytes offset) fun r => r.map fun _ => .done
  | .read j buffer offset => s.used platforms op j (·.read buffer offset) Scenario.readAnswer
  | .truncate j size => s.used platforms op j (·.truncate size) fun r => r.map fun _ => .done
  | .size j => s.used platforms op j (·.size) fun r => r.map .number
  | .close j => s.ended platforms op j Handle.close fun r => Scenario.unitAnswer r.1
  | .drop j => s.ended platforms op j Handle.drop fun _ => .ok .done

theorem operation_step (platforms : Nat → Platform I W) (s : Session W) (op : Operation) :
    (s.step platforms op).operation = op := by
  cases op <;> simp only [step, opened, used, ended] <;> split <;> rfl

/-! ## Runs -/

/-- Carries out operations one after the other. -/
def run (platforms : Nat → Platform I W) : Session W → List Operation → List (Record I W)
  | _, [] => []
  | s, op :: ops => s.step platforms op :: run platforms (s.step platforms op).after ops

/-- The session after some operations. -/
def final (platforms : Nat → Platform I W) : Session W → List Operation → Session W
  | s, [] => s
  | s, op :: ops => final platforms (s.step platforms op).after ops

/-- The operation ended the life of its journal: it failed to open it, or it closed or dropped it,
whatever the answer to that. -/
def Record.ends (r : Record I W) : Bool :=
  match r.operation with
  | .openForWrite _ _ _ _ _ | .openForRead _ _ => r.answer.any fun a => !a.isOk
  | .close _ | .drop _ => r.answer.isSome
  | _ => false

/-- The records of operations on the journal with a number. -/
def recordsOf (j : Nat) (records : List (Record I W)) : List (Record I W) :=
  records.filter (·.journal = j)

theorem recordsOf_append_self (past : List (Record I W)) (r : Record I W) :
    recordsOf r.journal (past ++ [r]) = recordsOf r.journal past ++ [r] := by
  simp [recordsOf]

theorem recordsOf_append_of_ne {j : Nat} (past : List (Record I W)) {r : Record I W}
    (h : r.journal ≠ j) : recordsOf j (past ++ [r]) = recordsOf j past := by
  simp [recordsOf, h]

/-- What happened to the journal with a number, over some records. -/
def story (j : Nat) (records : List (Record I W)) : List (Program.Happening I Event) :=
  (recordsOf j records).flatMap (·.history)

/-- The journal with a number was ended by one of some records. -/
def isOver (j : Nat) (records : List (Record I W)) : Bool :=
  (recordsOf j records).any (·.ends)

end Session

end WriteAhead
