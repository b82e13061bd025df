/-
# Scenarios

A scenario is a list of commands on a machine: handles live in named slots, rules about system
calls can be replaced, and files can be changed behind the handles' backs.  Each command leaves a
report of what it answered and of all that was asked and noted meanwhile.
-/
import WriteAhead.Journal.Transfer
import WriteAhead.Options.Basic
import WriteAhead.Probe
import WriteAhead.Script.Platform
import WriteAhead.Script.System

namespace WriteAhead

/-! ## Commands -/

/-- A change to the tree that no program makes. -/
inductive Arrangement where
  | file (path : Path) (bytes : Bytes)
  | directory (path : Path)
  | link (target path : Path)
  | remove (path : Path)
  | move (source target : Path)

/-- The tree after a change. -/
def Arrangement.apply (cwd : Location) (t : FileTree) : Arrangement → Option FileTree
  | .file p bytes => t.arrangeFile cwd p bytes
  | .directory p => t.arrangeDirectory cwd p
  | .link target p => t.arrangeLink cwd target p
  | .remove p => t.arrangeRemoval cwd p
  | .move p q => t.arrangeMove cwd p q

/-- The name of a place for a handle. -/
abbrev Slot : Type := String

/-- What a scenario can ask for. -/
inductive Command where
  | openWrite (slot : Slot) (path : Path) (options : JournalOptions)
      (platform : Option ScriptedPlatform)
  | openRead (slot : Slot) (path : Path) (platform : Option ScriptedPlatform)
  | write (slot : Slot) (bytes : Bytes) (offset : UInt64)
  | read (slot : Slot) (buffer : Bytes) (offset : UInt64)
  | truncate (slot : Slot) (size : UInt64)
  | size (slot : Slot)
  | path (slot : Slot)
  | isDeleteOnClose (slot : Slot)
  | close (slot : Slot)
  | drop (slot : Slot)
  | probe (path : Path) (platform : Option ScriptedPlatform)
  | syncAllowed (path : Path)
  | syncDirectoryFor (path : Path)
  | arrange (changes : List Arrangement)
  | setRules (rules : List CallRule)

/-- What a command can answer. -/
inductive Answer where
  | done
  | number (n : Nat)
  | flag (b : Bool)
  | path (p : Option Path)
  | policy (p : SyncPolicy)
  | transfer (count : Nat) (buffer : Bytes)

/-! ## States and reports -/

/-- A handle in a slot, with the platform that it was opened on if that is a scripted one. -/
structure OpenJournal where
  handle : Handle
  platform : Option ScriptedPlatform

/-- The state of a scenario. -/
structure Scenario where
  machine : Machine
  rules : List CallRule
  slots : List (Slot × OpenJournal)

/-- What was asked during a command: system calls, or the steps of a scripted platform. -/
inductive Asked where
  | calls (history : List (Program.Happening System Event))
  | steps (steps : List Step)

/-- What a command leaves: its answer, or nothing if it named an empty slot, and what was asked
and noted meanwhile. -/
structure Report where
  answer : Option (Outcome Answer)
  asked : Asked
  events : List Event

namespace Scenario

/-- The scenario on a tree, with nothing open and no rules. -/
def ofTree (t : FileTree) (cwd : Location) : Scenario := ⟨Machine.ofTree t cwd, [], []⟩

/-- What is in a slot. -/
def find? (s : Scenario) (slot : Slot) : Option OpenJournal :=
  (s.slots.find? (·.1 == slot)).map (·.2)

/-- The scenario with a slot emptied. -/
def clear (s : Scenario) (slot : Slot) : Scenario :=
  { s with slots := s.slots.filter (·.1 != slot) }

/-- The scenario with something put into a slot. -/
def put (s : Scenario) (slot : Slot) (j : OpenJournal) : Scenario :=
  { s with slots := (slot, j) :: (s.clear slot).slots }

/-! ## Running programs -/

/-- What running a program on the scenario's machine gives. -/
structure Ran (α : Type) where
  value : α
  platform : Option ScriptedPlatform
  scenario : Scenario
  asked : Asked
  events : List Event

/-- Runs a program over system calls. -/
def runSystem {α : Type} (s : Scenario) (p : SystemProgram α) : Ran α :=
  let r := p.run (Policy.handler scriptedPolicy) (s.machine, s.rules)
  ⟨r.value, none, { s with machine := r.world.1, rules := r.world.2 }, .calls r.history, r.events⟩

/-- The number of times that the rules can interrupt one call. -/
def patience (s : Scenario) : Nat := s.rules.length

/-- Runs a journal program on the native platform or on a scripted one. -/
def runSteps {α : Type} (s : Scenario) (platform : Option ScriptedPlatform)
    (p : Features → StepProgram α) : Ran α :=
  match platform with
  | none => s.runSystem (Posix.native s.patience (p Features.posix))
  | some q =>
    let r := s.runSystem ((p q.features).throughState (ScriptedPlatform.serve s.patience)
      { q with record := [] })
    ⟨r.value.1, some r.value.2, r.scenario, .steps r.value.2.record, r.events⟩

/-- The report of a run that answered. -/
def Ran.report {α : Type} (r : Ran α) (answer : Outcome Answer) : Report :=
  ⟨some answer, r.asked, r.events⟩

/-- The report of a command that asked for nothing. -/
def quiet (answer : Option (Outcome Answer)) : Report := ⟨answer, .calls [], []⟩

/-! ## Commands on handles -/

/-- Puts a handle that was opened into a slot. -/
def putOpened (r : Ran (Outcome (Handle × Nat))) (slot : Slot) (answer : Nat → Answer) :
    Report × Scenario :=
  match r.value with
  | .ok (h, n) => (r.report (.ok (answer n)), r.scenario.put slot ⟨h, r.platform⟩)
  | .error f => (r.report (.error f), r.scenario)

/-- Does something with the handle in a slot, which stays there. -/
def onHandle {α : Type} (s : Scenario) (slot : Slot) (p : Handle → StepProgram α)
    (answer : α → Outcome Answer) : Report × Scenario :=
  match s.find? slot with
  | none => (quiet none, s)
  | some j =>
    let r := s.runSteps j.platform fun _ => p j.handle
    (r.report (answer r.value), r.scenario.put slot ⟨j.handle, r.platform⟩)

/-- Ends the life of the handle in a slot. -/
def endHandle {α : Type} (s : Scenario) (slot : Slot) (p : Features → Handle → StepProgram α)
    (answer : α → Outcome Answer) : Report × Scenario :=
  match s.find? slot with
  | none => (quiet none, s)
  | some j =>
    let r := s.runSteps j.platform fun t => p t j.handle
    (r.report (answer r.value), r.scenario.clear slot)

/-- Answers from the handle in a slot alone. -/
def askHandle (s : Scenario) (slot : Slot) (answer : Handle → Answer) : Report × Scenario :=
  (quiet ((s.find? slot).map fun j => .ok (answer j.handle)), s)

/-- The answer to an operation that yields nothing. -/
def unitAnswer (r : Except JournalError Unit) : Outcome Answer :=
  Outcome.ofResult (r.map fun _ => .done)

/-- The answer to a read. -/
def readAnswer (r : Handle.ReadResult) : Outcome Answer :=
  r.outcome.map fun n => .transfer n r.buffer

/-! ## All commands -/

/-- The scenario after changes to its tree; a change that cannot be made ends them. -/
def arrange (s : Scenario) (changes : List Arrangement) : Option Scenario := do
  let tree ← changes.foldlM (fun t c => c.apply s.machine.workingDirectory t) s.machine.tree
  return { s with machine := { s.machine with tree := tree } }

/-- Carries out a command. -/
def carryOut (s : Scenario) : Command → Report × Scenario
  | .openWrite slot p o platform =>
    putOpened (s.runSteps platform fun t => Journal.openWithOptions t p o) slot .number
  | .openRead slot p platform =>
    putOpened (s.runSteps platform fun _ => do
      return Outcome.ofResult ((← Journal.openForRead p).map fun h => (h, 0))) slot
      fun _ => .done
  | .write slot bytes offset => s.onHandle slot (·.write bytes offset) fun r => r.map fun _ => .done
  | .read slot buffer offset => s.onHandle slot (·.read buffer offset) readAnswer
  | .truncate slot size => s.onHandle slot (·.truncate size) fun r => r.map fun _ => .done
  | .size slot => s.onHandle slot (·.size) fun r => r.map .number
  | .path slot => s.askHandle slot fun h => .path h.path
  | .isDeleteOnClose slot => s.askHandle slot fun h => .flag h.deleteOnClose
  | .close slot => s.endHandle slot Handle.close fun r => unitAnswer r.1
  | .drop slot => s.endHandle slot Handle.drop fun _ => .ok .done
  | .probe p platform =>
    let r := s.runSteps platform fun t => Probe.run t p
    (r.report (unitAnswer r.value), r.scenario)
  | .syncAllowed p =>
    let r := s.runSystem (Posix.syncAllowed s.patience p)
    (r.report (Outcome.ofResult (r.value.map .policy)), r.scenario)
  | .syncDirectoryFor p =>
    let r := s.runSystem (Posix.syncDirectoryFor s.patience p)
    (r.report (unitAnswer r.value), r.scenario)
  | .arrange changes =>
    match s.arrange changes with
    | some s' => (quiet (some (.ok .done)), s')
    | none => (quiet none, s)
  | .setRules rules => (quiet (some (.ok .done)), { s with rules := rules })

end Scenario

end WriteAhead
