/-
# Scripted platforms

A platform that takes its steps as the POSIX platform does, except where its rules say otherwise.
It keeps a record of the steps that it was asked to take, and resizes files by its own
preallocation, so that rules about preallocation reach a resize too.
-/
import WriteAhead.Platform.Posix
import WriteAhead.Script.Rule

namespace WriteAhead

/-- The kinds of step that rules can wait for. -/
inductive StepKind where
  | openForWrite
  | finishUnbuffered
  | openForRead
  | writeAt
  | readAt
  | flush
  | fileSize
  | resize
  | preallocate
  | syncDirectoryFor
  | unlink
  | close
deriving DecidableEq, Repr

/-- The kind of a step; what is asked of the system itself has none. -/
def Step.kind? : Step → Option StepKind
  | .openForWrite _ _ => some .openForWrite
  | .finishUnbuffered _ => some .finishUnbuffered
  | .openForRead _ => some .openForRead
  | .writeAt _ _ _ => some .writeAt
  | .readAt _ _ _ => some .readAt
  | .flush _ => some .flush
  | .fileSize _ => some .fileSize
  | .resize _ _ => some .resize
  | .preallocate _ _ => some .preallocate
  | .syncDirectoryFor _ => some .syncDirectoryFor
  | .unlink _ => some .unlink
  | .close _ => some .close
  | .systemLength _ | .setSystemLength _ _ | .entryExists _ => none

/-- What a rule about steps says. -/
inductive Interference where
  /-- The step fails; an open may make its file first. -/
  | fail (error : SystemError) (creates : Bool)
  /-- A transfer passes on at most so many bytes. -/
  | atMost (count : Nat)
  /-- A transfer reports so many bytes and moves none. -/
  | claim (count : Nat)
deriving DecidableEq

/-- A rule about platform steps. -/
abbrev StepRule : Type := Rule StepKind Interference

/-- A scripted platform: its rules, what it says about itself, and the steps it was asked for. -/
structure ScriptedPlatform where
  rules : List StepRule
  deletesOnClose : Bool
  /-- Failed flushes and size queries are reported as their own kinds of error. -/
  distinguishesFlush : Bool
  record : List Step

namespace ScriptedPlatform

/-- What the platform says about itself. -/
def features (s : ScriptedPlatform) : Features :=
  { Features.posix with deletesOnClose := s.deletesOnClose }

/-- The reply of a step that fails by rule. -/
def failureReply (distinguishes : Bool) (e : SystemError) : (s : Step) → s.Reply
  | .openForWrite _ _ => .error e
  | .finishUnbuffered _ => .error e
  | .openForRead _ => .error e
  | .writeAt _ _ _ => .error e
  | .readAt _ _ _ => .error e
  | .flush _ => .error (if distinguishes then .flush e else .sync e)
  | .fileSize _ => .error (if distinguishes then .getSize e else .stat e)
  | .resize _ size => .error (.resize size e)
  | .preallocate _ _ => .error e
  | .systemLength _ => .error e
  | .setSystemLength _ _ => .error e
  | .syncDirectoryFor _ => .error (.sync e)
  | .unlink _ => .error e
  | .close _ => .error e
  | .entryExists _ => false

/-- What happens before a step fails by rule: a close closes, and an open may make its file. -/
def beforeFailure (patience : Nat) (creates : Bool) : Step → SystemProgram Unit
  | .close d => do
    let _ ← Posix.serve patience (.close d)
  | .openForWrite p flags => do
    if creates then
      match ← Posix.serve patience (.openForWrite p flags) with
      | .ok d =>
        let _ ← Posix.serve patience (.close d)
      | .error _ => return ()
  | _ => return ()

/-- Takes a step with at most `count` bytes moved. -/
def serveAtMost (patience count : Nat) : (s : Step) → SystemProgram s.Reply
  | .writeAt d bytes offset => Posix.serve patience (.writeAt d (bytes.take count) offset)
  | .readAt d n offset => Posix.serve patience (.readAt d (min count n) offset)
  | s => Posix.serve patience s

/-- Takes a step that only claims to have moved `count` bytes. -/
def serveClaim (patience count : Nat) : (s : Step) → SystemProgram s.Reply
  | .writeAt _ _ _ => return .ok count
  | .readAt _ _ _ => return .ok ⟨count, []⟩
  | s => Posix.serve patience s

/-- Takes a step other than a resize, under what the rules say. -/
def interfere (patience : Nat) (distinguishes : Bool) (due : Option Interference) (s : Step) :
    SystemProgram s.Reply :=
  match due with
  | none => Posix.serve patience s
  | some (.atMost n) => serveAtMost patience n s
  | some (.claim n) => serveClaim patience n s
  | some (.fail e creates) => do
    beforeFailure patience creates s
    return failureReply distinguishes e s

/-- The platform after it was asked for a step, and what its rules say about it. -/
def consult (s : ScriptedPlatform) (k : StepKind) (step : Step) :
    Option Interference × ScriptedPlatform :=
  let (due, rules) := Rule.consult k Path.empty s.rules
  (due, { s with rules := rules, record := s.record ++ [step] })

/-- Takes a step that is no resize. -/
def serveOther (patience : Nat) (step : Step) (s : ScriptedPlatform) :
    SystemProgram (step.Reply × ScriptedPlatform) := do
  match step.kind? with
  | none => return (← Posix.serve patience step, s)
  | some k =>
    let (due, s') := s.consult k step
    return (← interfere patience s.distinguishesFlush due step, s')

/-- The parts of a resize; the preallocation is one of the platform's own steps. -/
def resizer (patience : Nat) (d : Descriptor) :
    Resizer (StateT ScriptedPlatform (Program System Event)) where
  length := serveOther patience (.systemLength d)
  preallocate := fun n => serveOther patience (.preallocate d n)
  setLength := fun n => serveOther patience (.setSystemLength d n)
  isUnsupported := SystemError.isUnsupported
  note := fun e s => do
    Program.emit e
    return ((), s)

/-- Takes any step. -/
def serve (patience : Nat) : (step : Step) → ScriptedPlatform →
    SystemProgram (step.Reply × ScriptedPlatform)
  | .resize d size, s =>
    let (due, s') := s.consult .resize (.resize d size)
    match due with
    | some (.fail e _) => return (.error (.resize size e), s')
    | _ => (resizer patience d).resize size s'
  | step, s => serveOther patience step s

end ScriptedPlatform

end WriteAhead
