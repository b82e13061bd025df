/-
# Scripted system calls

A policy for a machine that follows a list of rules.
-/
import WriteAhead.Script.Rule
import WriteAhead.System.Machine

namespace WriteAhead

/-- The kinds of call that rules can wait for. -/
inductive CallKind where
  | open_
  | close
  | sync
  | setLength
  | allocate
  | length
  | fileSystem
  | writeAt
  | readAt
  | unlink
deriving DecidableEq, Repr

/-- The kind of a call; the look at an entry has none. -/
def SystemCall.kind? : SystemCall → Option CallKind
  | .open_ _ _ => some .open_
  | .close _ => some .close
  | .sync _ => some .sync
  | .setLength _ _ => some .setLength
  | .allocate _ _ => some .allocate
  | .length _ => some .length
  | .fileSystem _ => some .fileSystem
  | .writeAt _ _ _ => some .writeAt
  | .readAt _ _ _ => some .readAt
  | .unlink _ => some .unlink
  | .inspect _ => none

/-- A rule about system calls. -/
abbrev CallRule : Type := Rule CallKind Verdict

/-- The policy that follows rules, and counts calls in them. -/
def scriptedPolicy : Policy (List CallRule) := fun c rules =>
  match c.kind? with
  | none => (.proceed, rules)
  | some k =>
    let (due, rules') := Rule.consult k c.path rules
    (due.getD .proceed, rules')

end WriteAhead
