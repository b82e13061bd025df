/-
# Calls through one descriptor

All that an open journal is used for changes at most the content of its own file: the calls write
through the journal's descriptor, and besides they only look, sync, open for reading and close.
What is not open for writing is not even changed by these.

* `Confined.answers` : what calls through one descriptor leave alone;
* `Posix.asks_serve_of_uses` : the uses of a journal make such calls only.
-/
import WriteAhead.Proofs.Calls
import WriteAhead.Proofs.Forcing

namespace WriteAhead

open Program

/-! ## The calls -/

/-- The call writes through the descriptor `d`, or it changes neither names nor contents. -/
def SystemCall.Through (d : Descriptor) : SystemCall → Prop
  | .open_ _ mode => mode = .read
  | .setLength d' _ | .allocate d' _ | .writeAt d' _ _ => d' = d
  | .unlink _ => False
  | _ => True

/-- The call works on what is open as the descriptor `d`, and leaves it open. -/
def SystemCall.Uses (d : Descriptor) : SystemCall → Prop
  | .sync d' | .setLength d' _ | .allocate d' _ | .length d' | .fileSystem d' | .writeAt d' _ _
  | .readAt d' _ _ => d' = d
  | .open_ _ _ | .close _ | .unlink _ | .inspect _ => False

theorem SystemCall.Uses.through {d : Descriptor} {c : SystemCall} (h : c.Uses d) : c.Through d := by
  cases c with
  | setLength d' n | allocate d' n | writeAt d' bytes offset => exact h
  | sync d' | length d' | fileSystem d' | readAt d' count offset => trivial
  | open_ p mode => exact absurd h id
  | close d' => trivial
  | unlink p => exact absurd h id
  | inspect p => trivial

namespace Posix

theorem asks_sync {Q : SystemCall → Prop} {d : Descriptor} (hsync : Q (.sync d)) (patience : Nat) :
    (sync patience d).Asks Q :=
  (asks_persist hsync patience).bind fun _ => trivial

/-- Syncing a directory asks for it to be opened, and works on its own descriptor from then on. -/
theorem asks_syncDirectoryFor {Q : SystemCall → Prop} {p : Path}
    (hopen : Q (.open_ p.directory .read))
    (hwork : ∀ x, Q (.fileSystem x) ∧ Q (.sync x) ∧ Q (.close x)) (patience : Nat) :
    (syncDirectoryFor patience p).Asks Q := by
  have hsync : ∀ x, (syncDirectory patience p.directory x).Asks Q := by
    intro x
    have hpolicy : (policyOf x).Asks Q := by
      refine (asks_once (hwork x).1).bind fun r => ?_
      rcases r with e | word <;> exact trivial
    refine hpolicy.bind fun policy => ?_
    rcases policy with e | _ | _
    · exact trivial
    · refine (asks_sync (hwork x).2.1 patience).bind fun r => ?_
      rcases r with e | u <;> exact trivial
    · trivial
  refine (asks_openPath hopen patience).bind fun r => ?_
  rcases r with e | x
  · exact trivial
  · refine (hsync x).bind fun _ => (asks_once (hwork x).2.2).bind fun _ => trivial

/-- The uses of the journal that is open as `d` are calls on `d`, but for the sync of a
directory. -/
theorem asks_serve_uses {Q : SystemCall → Prop} {d : Descriptor} {s : Step} (hs : s.Uses d)
    (hQ : ∀ c : SystemCall, c.Uses d → Q c) (patience : Nat)
    (hdirectory : ∀ p, s = .syncDirectoryFor p → (syncDirectoryFor patience p).Asks Q) :
    (serve patience s).Asks Q := by
  cases s with
  | finishUnbuffered d' => trivial
  | writeAt d' bytes offset => exact asks_once (hQ _ hs)
  | readAt d' count offset =>
    refine (asks_once (hQ (.readAt d' count offset) hs)).bind fun r => ?_
    rcases r with e | bytes <;> trivial
  | flush d' =>
    refine (asks_sync (hQ _ hs) patience).bind fun r => ?_
    rcases r with e | u <;> trivial
  | fileSize d' =>
    refine (asks_once (hQ (.length d') hs)).bind fun r => ?_
    rcases r with e | n <;> trivial
  | resize d' size => exact asks_resize (hQ _ hs) (hQ _ hs) (hQ _ hs) patience
  | syncDirectoryFor p => exact hdirectory p rfl
  | _ => exact absurd hs id

/-- The uses of the journal that is open as `d` are calls through `d`. -/
theorem asks_serve_of_uses {d : Descriptor} {s : Step} (hs : s.Uses d) (patience : Nat) :
    (serve patience s).Asks (SystemCall.Through d) :=
  asks_serve_uses hs (fun _ hc => hc.through) patience fun _ _ =>
    asks_syncDirectoryFor (Q := SystemCall.Through d) rfl
      (fun _ => ⟨trivial, trivial, trivial⟩) patience

/-- What uses the journal that is open as `d` makes calls through `d`. -/
theorem asks_native_of_uses {α : Type} {d : Descriptor} {p : StepProgram α}
    (hp : p.Asks (Step.Uses d)) (patience : Nat) :
    (native patience p).Asks (SystemCall.Through d) :=
  hp.through fun _ hs => asks_serve_of_uses hs patience

end Posix

/-! ## What they leave alone -/

namespace Machine

variable {P : SystemCall → Verdict → Prop} {m m' : Machine} {c : SystemCall} {d : Descriptor}

/-- Only a file that is open for writing can be written. -/
theorem Answers.writeAt_ok {bytes : Bytes} {offset : UInt64} {n : Nat}
    (h : m.Answers P (.writeAt d bytes offset) (.ok n) m') :
    ∃ id c, m.opened d.number = some ⟨true, .file id⟩ ∧ m' = m.setContent id c := by
  rcases h.cases with ⟨_, -, hr, -⟩ | ⟨v, -, hv⟩
  · exact absurd hr (by simp)
  · simp only [perform, Machine.writeAt] at hv
    split at hv
    · exact absurd hv (by simp)
    · split at hv
      · next id hopen =>
        split at hv
        · exact absurd hv (by simp)
        · exact ⟨id, _, hopen, (Prod.mk.inj hv).2.symm⟩
      · exact absurd hv (by simp)

/-- The machine works in `cwd` on the tree `t`, but for the contents of files that may change; and
through `d` no others can be written. -/
structure Confined (may : FileId → Prop) (d : Descriptor) (t : FileTree) (cwd : Location)
    (m : Machine) : Prop where
  entries : m.tree.entries = t.entries
  nextFile : m.tree.nextFile = t.nextFile
  content : ∀ id, ¬ may id → m.tree.content id = t.content id
  workingDirectory : m.workingDirectory = cwd
  handedOut : d.number < m.nextNumber
  target : ∀ id, m.opened d.number = some ⟨true, .file id⟩ → may id

namespace Confined

variable {may : FileId → Prop} {t : FileTree} {cwd : Location}

/-- What was just opened can be written if it was opened for that. -/
theorem openTarget {p : Path} {f : OpenFile} (htarget : ∀ id, f = ⟨true, .file id⟩ → may id) :
    Confined may (m.openTarget p f).1 m.tree m.workingDirectory (m.openTarget p f).2 where
  entries := rfl
  nextFile := rfl
  content := fun _ _ => rfl
  workingDirectory := rfl
  handedOut := Nat.lt_succ_self _
  target := by
    intro id hid
    simp only [Machine.openTarget, if_true] at hid
    exact htarget id (Option.some.inj hid)

/-- Opening something else leaves the descriptor as it is. -/
theorem openOther (h : Confined may d t cwd m) (p : Path) (f : OpenFile) :
    Confined may d t cwd (m.openTarget p f).2 where
  entries := h.entries
  nextFile := h.nextFile
  content := h.content
  workingDirectory := h.workingDirectory
  handedOut := Nat.lt_succ_of_lt h.handedOut
  target := by
    intro id hid
    simp only [Machine.openTarget, if_neg (Nat.ne_of_lt h.handedOut)] at hid
    exact h.target id hid

theorem forget (h : Confined may d t cwd m) (k : Nat) : Confined may d t cwd (m.forget k) where
  entries := h.entries
  nextFile := h.nextFile
  content := h.content
  workingDirectory := h.workingDirectory
  handedOut := h.handedOut
  target := by
    intro id hid
    simp only [Machine.forget] at hid
    split at hid
    · exact absurd hid (by simp)
    · exact h.target id hid

theorem setContent (h : Confined may d t cwd m) {id : FileId} (hid : may id) (c : Content) :
    Confined may d t cwd (m.setContent id c) where
  entries := h.entries
  nextFile := h.nextFile
  content := by
    intro k hk
    have hne : k ≠ id := by
      rintro rfl
      exact hk hid
    rw [tree_setContent, FileTree.content_setContent, if_neg hne]
    exact h.content k hk
  workingDirectory := h.workingDirectory
  handedOut := h.handedOut
  target := h.target

/-- What a call through the descriptor leaves alone, however it is answered. -/
theorem answers (h : Confined may d t cwd m) (hc : c.Through d) {r : c.Reply}
    (hr : m.Answers P c r m') : Confined may d t cwd m' := by
  cases c with
  | open_ p mode =>
    obtain rfl : mode = .read := hc
    rcases hr.openRead with ⟨target, -, -, rfl⟩ | ⟨rfl, -, -⟩
    · exact h.openOther p _
    · exact h
  | close d' =>
    rcases hr.close.1 with rfl | ⟨rfl, -⟩
    · exact h.forget d'.number
    · exact h
  | sync | length | fileSystem | readAt | inspect =>
    rw [hr.of_isQuery rfl]
    exact h
  | setLength d' n =>
    obtain rfl : d' = d := hc
    cases r with
    | error code => rwa [hr.of_error (by simp)]
    | ok u =>
      obtain ⟨id, hopen, rfl⟩ := hr.setLength_ok
      exact h.setContent (h.target id hopen) _
  | allocate d' n =>
    obtain rfl : d' = d := hc
    cases r with
    | error code => rwa [hr.of_error (by simp)]
    | ok u =>
      obtain ⟨id, k, hopen, -, rfl⟩ := hr.allocate_ok
      exact h.setContent (h.target id hopen) _
  | writeAt d' bytes offset =>
    obtain rfl : d' = d := hc
    cases r with
    | error code => rwa [hr.of_error (by simp)]
    | ok n =>
      obtain ⟨id, c, hopen, rfl⟩ := hr.writeAt_ok
      exact h.setContent (h.target id hopen) c
  | unlink p => exact absurd hc id

/-- What is erased from the tree is gone for the machine. -/
theorem erase (h : Confined may d t cwd m) (l : Location) :
    Confined may d (t.erase l) cwd { m with tree := m.tree.erase l } where
  entries := congrArg (FileTree.eraseIn l) h.entries
  nextFile := h.nextFile
  content := h.content
  workingDirectory := h.workingDirectory
  handedOut := h.handedOut
  target := h.target

theorem find (h : Confined may d t cwd m) (l : Location) : m.tree.find l = t.find l := by
  unfold FileTree.find
  rw [h.entries]

/-- Where no content may change, the tree is the same. -/
theorem tree_eq (h : Confined (fun _ => False) d t cwd m) : m.tree = t := by
  obtain ⟨entries, content, nextFile⟩ := t
  have hcontent : m.tree.content = content := funext fun id => h.content id not_false
  calc m.tree = ⟨m.tree.entries, m.tree.content, m.tree.nextFile⟩ := rfl
    _ = ⟨entries, content, nextFile⟩ := by rw [h.entries, h.nextFile, hcontent]

/-- Where no content may change, the descriptor is not open for writing. -/
theorem not_writable (h : Confined (fun _ => False) d t cwd m) (id : FileId) :
    m.opened d.number ≠ some ⟨true, .file id⟩ :=
  fun hopen => h.target id hopen

end Confined

end Machine

end WriteAhead
