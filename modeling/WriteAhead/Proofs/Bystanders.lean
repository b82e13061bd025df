/-
# What a self-test leaves alone

A self-test works on whatever its path leads to when that is opened, and removes whatever its path
names itself.  The two are one entry unless the path names a symbolic link.  Then the file behind
the link is extended, or made if it is missing, and only the link is removed.

* `Probe.run_spares_bystanders` : what can be made, lost or changed in a tree by a self-test.
-/
import WriteAhead.Proofs.SelfTest

namespace WriteAhead

open Program

/-! ## Trees -/

namespace FileTree

/-- Every file has a smaller number than the next one to be made. -/
def Fresh (t : FileTree) : Prop := ∀ l id, t.find l = some (.file id) → id < t.nextFile

variable {t t₁ t' : FileTree} {cwd : Location} {p : Path} {l d : Location} {n : Name}
  {id : FileId} {k : Nat}

theorem fresh_empty : empty.Fresh := by
  intro l id hl
  by_cases hroot : l = []
  · rw [hroot, find_root] at hl
    exact absurd hl (by simp)
  · rw [find_eq_findIn _ hroot] at hl
    exact absurd hl (by simp [empty, findIn])

/-- Making a file keeps the numbers of files below that of the next. -/
theorem Fresh.makeFile (h : t.Fresh) (n : Name) (d : Location) (c : Content) :
    (t.makeFile (n :: d) c).1.Fresh := by
  intro l id hl
  rw [find_makeFile] at hl
  split at hl
  · obtain rfl : t.nextFile = id := by simpa using hl
    exact Nat.lt_succ_self _
  · exact Nat.lt_succ_of_lt (h l id hl)

/-- The tree lost what the path names, or nothing. -/
def LosesAtMost (t : FileTree) (cwd : Location) (p : Path) (t' : FileTree) : Prop :=
  t' = t ∨ t.unlink cwd p = .ok t'

namespace LosesAtMost

theorem find (h : t.LosesAtMost cwd p t') (hl : t'.find l ≠ none) : t.find l = t'.find l := by
  rcases h with rfl | h
  · rfl
  · exact find_of_unlink h hl

theorem find_file (h : t.LosesAtMost cwd p t') (hl : t.find l = some (.file id))
    (hopen : t.openExisting cwd p ≠ .ok (.file id)) : t'.find l = some (.file id) := by
  rcases h with rfl | h
  · exact hl
  · exact find_file_of_unlink h hl hopen

theorem content (h : t.LosesAtMost cwd p t') (id : FileId) : t'.content id = t.content id := by
  rcases h with rfl | h
  · rfl
  · exact content_of_unlink h id

end LosesAtMost

/-! ## What is spared -/

/-- What a change makes, loses and changes in a tree that was to be changed at a path only.  The
one entry that can be new is the file that a dangling link led to, and the one file that can have
changed is the file that the path led to. -/
structure Spares (t : FileTree) (cwd : Location) (p : Path) (t' : FileTree) : Prop where
  made : ∀ l, t'.find l ≠ none → t.find l ≠ none ∨
    t.NamesLink cwd p ∧ ∃ d n, t.resolve .visit cwd p = .ok (.absent d n false) ∧ l = n :: d
  kept : ∀ l id, t.find l = some (.file id) → t.openExisting cwd p ≠ .ok (.file id) →
    t'.find l = some (.file id) ∧ t'.content id = t.content id
  extended : ∀ l id, t.find l = some (.file id) →
    ∃ k, t'.content id = (t.content id).extendTo k

namespace Spares

/-- A name is lost at most. -/
theorem of_losesAtMost (h : t.LosesAtMost cwd p t') : t.Spares cwd p t' := by
  refine ⟨fun l hl => .inl ?_, fun l id hl hopen => ⟨h.find_file hl hopen, h.content id⟩,
    fun l id _ => ⟨0, ?_⟩⟩
  · rw [h.find hl]
    exact hl
  · rw [h.content id]
    simp [Content.extendTo]

/-- The file that the path leads to is extended, and a name is lost at most. -/
theorem of_found (hopen : t.openExisting cwd p = .ok (.file id))
    (h : (t.setContent id ((t.content id).extendTo k)).LosesAtMost cwd p t') :
    t.Spares cwd p t' := by
  have hcontent : ∀ id', t'.content id' =
      if id' = id then (t.content id).extendTo k else t.content id' := fun id' => h.content id'
  refine ⟨fun l hl => .inl ?_, fun l id' hl hopen' => ?_, fun l id' _ => ?_⟩
  · rw [← find_setContent, h.find hl]
    exact hl
  · have hne : id' ≠ id := by
      rintro rfl
      exact hopen' hopen
    refine ⟨h.find_file hl (by rwa [openExisting_setContent]), ?_⟩
    rw [hcontent, if_neg hne]
  · rw [hcontent]
    split
    · next heq => exact ⟨k, by rw [heq]⟩
    · exact ⟨0, by simp [Content.extendTo]⟩

/-- A file is made where the path leads, and a name is lost at most, but for sure if the path names
the new file itself. -/
theorem of_made (hfresh : t.Fresh) (hvisit : t.resolve .visit cwd p = .ok (.absent d n false))
    (ht₁ : t₁ = (t.makeFile (n :: d) Content.empty).1)
    (h : (t₁.setContent t.nextFile ((t₁.content t.nextFile).extendTo k)).LosesAtMost cwd p t')
    (hlost : t₁.resolve .remove cwd p = .ok (.entry d n (.file t.nextFile) false) →
      t'.find (n :: d) = none) : t.Spares cwd p t' := by
  subst ht₁
  obtain ⟨hfree, hresolve⟩ := resolve_makeFile hvisit Content.empty
  have hfind : ∀ l ≠ n :: d, (t.makeFile (n :: d) Content.empty).1.find l = t.find l := by
    intro l hl
    rw [find_makeFile, if_neg hl]
  have hold : ∀ l id, t.find l = some (.file id) → id ≠ t.nextFile ∧ l ≠ n :: d := by
    intro l id hl
    refine ⟨Nat.ne_of_lt (hfresh l id hl), ?_⟩
    rintro rfl
    exact absurd (hfree.symm.trans hl) (by simp)
  have hcontent : ∀ id, id ≠ t.nextFile → t'.content id = t.content id := by
    intro id hid
    rw [h.content id, content_setContent, if_neg hid]
    simp [makeFile, content_insert, content_setContent, hid]
  refine ⟨fun l hl => ?_, fun l id hl hopen => ?_, fun l id hl => ⟨0, ?_⟩⟩
  · by_cases hnew : l = n :: d
    · subst hnew
      rcases resolve_remove_of_visit hvisit with hremove | hlink
      · -- the path names the new file itself, which is gone then
        exact absurd (hlost (resolve_makeFile hremove Content.empty).2) hl
      · exact .inr ⟨hlink, d, n, hvisit, rfl⟩
    · rw [← hfind l hnew, ← find_setContent, h.find hl]
      exact .inl hl
  · obtain ⟨hid, hne⟩ := hold l id hl
    refine ⟨h.find_file ?_ ?_, hcontent id hid⟩
    · rw [find_setContent, hfind l hne, hl]
    · rw [openExisting_setContent, openExisting_of_resolve hresolve]
      simpa using hid.symm
  · rw [hcontent id (hold l id hl).1]
    simp [Content.extendTo]

end Spares

end FileTree

/-! ## Self-tests -/

/-- Whether a name can be removed is up to the tree alone. -/
def UnlinkWorks : SystemCall → Verdict → Prop
  | .unlink _, .fail _ => False
  | _, _ => True

namespace Posix

variable {P : SystemCall → Verdict → Prop} {m m' : Machine}
  {history : List (Happening System Event)} {p : Path}

theorem Removed.losesAtMost (h : Removed P p m m' history) :
    m.tree.LosesAtMost m.workingDirectory p m'.tree := by
  rcases h with ⟨-, t, ht, rfl⟩ | ⟨rfl, -, -⟩
  · exact .inr ht
  · exact .inl rfl

/-- A file that the path names itself loses this name. -/
theorem Removed.find_eq_none (h : Removed UnlinkWorks p m m' history)
    (hzero : p.hasZeroByte = false) {d : Location} {n : Name} {id : FileId}
    (hr : m.tree.resolve .remove m.workingDirectory p = .ok (.entry d n (.file id) false)) :
    m'.tree.find (n :: d) = none := by
  have hunlink : m.tree.unlink m.workingDirectory p = .ok (m.tree.erase (n :: d)) :=
    FileTree.unlink_eq_ok_iff.mpr ⟨d, n, .file id, hr, by simp, rfl⟩
  have herased : (m.tree.erase (n :: d)).find (n :: d) = none := by
    rw [FileTree.find_erase _ _ _ (by simp), if_pos rfl]
  rcases h with ⟨-, t, ht, rfl⟩ | ⟨-, -, hzero' | ⟨code, hcode⟩ | ⟨code, hfail⟩⟩
  · obtain rfl := Except.ok.inj (hunlink.symm.trans ht)
    exact herased
  · exact absurd (hzero.symm.trans hzero') (by simp)
  · exact absurd (hunlink.symm.trans hcode) (by simp)
  · exact hfail.elim

theorem Probed.spares {r : Except JournalError Unit} (hfresh : m.tree.Fresh)
    (h : Probed UnlinkWorks p m r m' history) :
    m.tree.Spares m.workingDirectory p m'.tree := by
  rcases h with ⟨hzero, -, id, t, k, m₁, hmake, htree, hwd, hremoved⟩ |
    ⟨-, ⟨-, rfl, -⟩ | ⟨-, hremoved⟩⟩
  · have hloses := hremoved.losesAtMost
    rw [htree, hwd] at hloses
    rcases FileTree.openOrMake_cases hmake with ⟨rfl, hopen⟩ | ⟨d, n, hvisit, ht, rfl⟩
    · exact .of_found hopen hloses
    · refine .of_made hfresh hvisit ht hloses fun hr => ?_
      have hr₁ : m₁.tree.resolve .remove m₁.workingDirectory p =
          .ok (.entry d n (.file m.tree.nextFile) false) := by
        rw [htree, hwd, FileTree.resolve_setContent]
        exact hr
      exact hremoved.find_eq_none hzero hr₁
  · exact .of_losesAtMost (.inl rfl)
  · exact .of_losesAtMost hremoved.losesAtMost

end Posix

namespace Probe

/-- **What a self-test leaves alone.**  Where unlinking works, a self-test makes no entry but the
file behind a dangling link; it keeps the name and the content of every file but the one that the
path leads to, and extends that one at most; and if the open fails, the tree is as it was, unless
the check that comes first failed to report an entry that was there. -/
theorem run_spares_bystanders {φ : Type} (patience : Nat) (decide : Policy φ)
    (hunlink : decide.Within UnlinkWorks) (m : Machine) (hfresh : m.tree.Fresh) (s : φ)
    (path : Path) :
    let r := (Posix.native patience (run Features.posix path)).run decide.handler (m, s)
    m.tree.Spares m.workingDirectory path r.world.1.tree ∧
      ((∃ e, r.value = .error (.opening path e)) →
        (m.tree.inspectEntry m.workingDirectory path = .ok () →
          .answered (.inspect path) (.ok ()) ∈ r.history) →
        r.world.1.tree = m.tree) := by
  intro r
  have hends : CanEnd UnlinkWorks _ m r.value r.world.1 r.history :=
    Posix.canEnd_run hunlink _ (m, s)
  have hprobed := Posix.ends_probe hends
  refine ⟨hprobed.spares hfresh, fun ⟨e, he⟩ hseen => ?_⟩
  rcases hprobed with ⟨-, hr, -⟩ | ⟨-, ⟨-, hm, -⟩ | ⟨hnot, hremoved⟩⟩
  · exact absurd he (hr e)
  · rw [hm]
  · -- what can be removed is there to be seen
    rcases hremoved.losesAtMost with htree | hunlinked
    · exact htree
    · exact absurd (hseen (FileTree.inspectEntry_of_unlink hunlinked).1) hnot

/-- A tree with a file of three bytes at `t`. -/
def oneFile : FileTree := (FileTree.empty.makeFile [[116]] (Content.ofBytes [1, 2, 3])).1

/-- A self-test of a path of a tree. -/
def test (decide : Policy Unit) (t : FileTree) (path : Path) :
    Run System Event (Machine × Unit) (Except JournalError Unit) :=
  (Posix.native 0 (run Features.posix path)).run decide.handler (.ofTree t [], ())

/-- A self-test of `u` leaves nothing there, and leaves alone what is at `t`. -/
theorem run_spares_oneFile :
    (Policy.unhindered.Within UnlinkWorks ∧ oneFile.Fresh) ∧
      (test Policy.unhindered oneFile ⟨[117]⟩).value = .ok () ∧
      oneFile.Spares [] ⟨[117]⟩ (test Policy.unhindered oneFile ⟨[117]⟩).world.1.tree := by
  have hworks : Policy.unhindered.Within UnlinkWorks := by
    intro c s
    cases c <;> exact trivial
  have hfresh : oneFile.Fresh := FileTree.fresh_empty.makeFile _ _ _
  exact ⟨⟨hworks, hfresh⟩, rfl,
    (run_spares_bystanders 0 Policy.unhindered hworks (.ofTree oneFile []) hfresh () ⟨[117]⟩).1⟩

/-! ### Damage through a link, and behind a check that failed -/

/-- A system on which entries can be neither looked at nor opened. -/
def blind : Policy Unit := fun c s =>
  match c with
  | .inspect _ | .open_ _ _ => (.fail 5, s)
  | _ => (.proceed, s)

/-- A tree with nothing but a link at `l` that leads to `t`. -/
def danglingLink : FileTree := FileTree.empty.insert [[108]] (.link ⟨[116]⟩)

/-- A tree with a file of three bytes at `t`, and a link at `l` that leads to it. -/
def linkedFile : FileTree := oneFile.insert [[108]] (.link ⟨[116]⟩)

/-- A self-test of `l` makes a file at `t` that stays, or extends the one that was there; and a
self-test that can neither look at `t` nor open it removes the file. -/
theorem run_damages_bystanders :
    (danglingLink.find [[116]] = none ∧
      (test Policy.unhindered danglingLink ⟨[108]⟩).world.1.tree.find [[116]] = some (.file 0)) ∧
    (linkedFile.find [[116]] = some (.file 0) ∧ (linkedFile.content 0).length = 3 ∧
      ((test Policy.unhindered linkedFile ⟨[108]⟩).world.1.tree.content 0).length = 65536) ∧
    (∃ e, (test blind oneFile ⟨[116]⟩).value = .error (.opening ⟨[116]⟩ e)) ∧
      oneFile.find [[116]] = some (.file 0) ∧
      (test blind oneFile ⟨[116]⟩).world.1.tree.find [[116]] = none := by
  refine ⟨⟨by decide, by decide⟩, ⟨by decide, by decide, by decide⟩, ⟨_, rfl⟩, by decide, by decide⟩

end Probe

end WriteAhead
