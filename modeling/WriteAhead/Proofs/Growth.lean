/-
# Opening never shrinks a journal

Opening a journal for writing on the native platform, on a machine that may fail any call and may
preallocate more than it was asked to: the journal ends exactly as long as promised with its old
bytes in place, and a failed opening takes none of them away.
-/
import WriteAhead.Proofs.Contents
import WriteAhead.Proofs.Naming
import WriteAhead.Proofs.Rollback
import WriteAhead.Proofs.Steps

namespace WriteAhead

open Program

namespace Posix

variable {P : SystemCall → Verdict → Prop} {m m' : Machine}
  {history : List (Happening System Event)} {d : Descriptor} {id : FileId}
  {patience : Nat}

/-! ## Growing -/

/-- Growing gives the file the greater of its length and the size asked for, and touches it only
if that is more; or it fails and has at most extended the file. -/
theorem ends_grow (hopen : m.opened d.number = some ⟨true, .file id⟩) {size : UInt64}
    {r : Except JournalError Nat}
    (h : CanEnd P (native patience (Journal.grow d size)) m r m' history) :
    (r = .ok (max (m.tree.content id).length size.toNat) ∧
        m' = m.setContent id
          ((m.tree.content id).setLength (max (m.tree.content id).length size.toNat)) ∧
        (size.toNat ≤ (m.tree.content id).length →
          ∀ q ∈ requestsOf history, q = .length d)) ∨
      (∃ e, r = .error e) ∧ (∃ k, m' = m.setContent id ((m.tree.content id).extendTo k)) ∧
        ResizeCanFail P d size := by
  unfold Journal.grow at h
  rw [native_bind, native_take] at h
  obtain ⟨a, m₁, xs, ys, ha, hr, rfl⟩ := ends_bind.mp h
  obtain ⟨rfl, hcalls, rfl | ⟨hfail, e, rfl⟩⟩ := ends_fileSize hopen ha
  · simp only at hr
    split at hr
    · next hlt =>
      rw [native_bind, native_take] at hr
      obtain ⟨b, m₂, zs, us, hb, hr, rfl⟩ := ends_bind.mp hr
      rcases ends_resize hopen hb with ⟨rfl, rfl⟩ | ⟨hk, hwhy, e, rfl⟩
      · obtain ⟨rfl, rfl, rfl⟩ := hr
        rw [Nat.max_eq_right (Nat.le_of_lt hlt)]
        exact .inl ⟨rfl, rfl, fun hle => absurd hlt (Nat.not_lt.mpr hle)⟩
      · obtain ⟨rfl, rfl, rfl⟩ := hr
        exact .inr ⟨⟨e, rfl⟩, hk, hwhy⟩
    · next hge =>
      obtain ⟨rfl, rfl, rfl⟩ := hr
      rw [Nat.max_eq_left (Nat.le_of_not_lt hge)]
      refine .inl ⟨rfl, by simp, fun _ q hq => ?_⟩
      rw [List.append_nil, hcalls] at hq
      exact List.mem_singleton.mp hq
  · obtain ⟨rfl, rfl, rfl⟩ := hr
    exact .inr ⟨⟨e, rfl⟩, ⟨0, by simp [Content.extendTo]⟩, .inr (.inl hfail)⟩

/-- Finishing unbuffered access is done by the opening flags, so that preparing is growing. -/
theorem ends_prepare {flags : OpenFlags} {size : UInt64} {r : Except JournalError Nat}
    (h : CanEnd P (native patience (Journal.prepare flags d size)) m r m' history) :
    CanEnd P (native patience (Journal.grow d size)) m r m' history := by
  unfold Journal.prepare Journal.finishUnbuffered at h
  split at h
  · exact h
  · exact h

/-! ## Rolling back -/

/-- What is done with the name of a file on release: it is unlinked, or the tree is left alone. -/
def NameReleased (q : Option Path) (m m' : Machine)
    (history : List (Happening System Event)) : Prop :=
  (m'.tree = m.tree ∧ m'.workingDirectory = m.workingDirectory) ∨
    ∃ p, q = some p ∧ .answered (.unlink p) (.ok ()) ∈ history

theorem ends_unlinkIfAny {q : Option Path} {r : Except JournalError Unit}
    (h : CanEnd P (native patience (Handle.unlinkIfAny q)) m r m' history) :
    NameReleased q m m' history := by
  cases q with
  | none =>
    obtain ⟨rfl, rfl, rfl⟩ := h
    exact .inl ⟨rfl, rfl⟩
  | some p =>
    unfold Handle.unlinkIfAny at h
    rw [native_bind, native_take] at h
    obtain ⟨a, m₁, xs, ys, ha, hr, rfl⟩ := ends_bind.mp h
    obtain ⟨-, ⟨hcall, rfl, -⟩ | ⟨rfl, -, ⟨e, rfl⟩, -⟩⟩ := ends_unlink ha
    · exact .inr ⟨p, rfl, List.mem_append_left ys hcall⟩
    · obtain ⟨rfl, rfl, rfl⟩ := hr
      exact .inl ⟨rfl, rfl⟩

theorem ends_closeAfter {unlinked r : Except JournalError Unit}
    (h : CanEnd P (native patience (Handle.closeAfter d unlinked)) m r m' history) :
    m'.tree = m.tree ∧ m'.workingDirectory = m.workingDirectory := by
  unfold Handle.closeAfter at h
  rw [native_bind, native_take] at h
  obtain ⟨a, m₁, xs, ys, ha, hr, rfl⟩ := ends_bind.mp h
  have hsame : m' = m₁ := by
    cases a with
    | ok u => exact hr.2.1
    | error e =>
      cases unlinked with
      | ok u => exact hr.2.1
      | error first =>
        obtain ⟨rest, ⟨-, hm, -⟩, -⟩ := hr
        exact hm
  subst hsame
  rcases (ends_close ha).1 with rfl | ⟨rfl, -⟩ <;> exact ⟨rfl, rfl⟩

/-- A rollback leaves the tree alone, unless it unlinks the path of an ephemeral file. -/
theorem ends_abort {t : Features} {h : Handle} (hd : h.descriptor = some d)
    {cause e : JournalError}
    (hends : CanEnd P (native patience (h.abort t cause)) m e m' history) :
    NameReleased (h.unlinkPath? t) m m' history := by
  rw [Handle.abort_eq, Handle.release_of_descriptor_eq_some t h hd] at hends
  simp only [native_bind] at hends
  obtain ⟨x, m₁, xs, ys, hrelease, hreport, rfl⟩ := ends_bind.mp hends
  obtain ⟨unlinked, m₂, us, vs, hunlink, hrest, rfl⟩ := ends_bind.mp hrelease
  obtain ⟨closed, m₃, ws, zs, hclose, ⟨rfl, rfl, rfl⟩, rfl⟩ := ends_bind.mp hrest
  have hsame : m' = m₁ := by
    rcases closed with f | u
    · cases f with
      | unlink => obtain ⟨rest, ⟨-, hm, -⟩, -⟩ := hreport; exact hm
      | _ => obtain ⟨rest, ⟨-, hm, -⟩, -⟩ := hreport; exact hm
    · exact hreport.2.1
  subst hsame
  obtain ⟨htree, hwd⟩ := ends_closeAfter hclose
  rcases ends_unlinkIfAny hunlink with ⟨htree', hwd'⟩ | ⟨p, hp, hcall⟩
  · exact .inl ⟨htree.trans htree', hwd.trans hwd'⟩
  · exact .inr ⟨p, hp, by simp [hcall]⟩

/-! ## Opening -/

/-- The system calls that can change how long a file is. -/
def changesLength : SystemCall → Bool
  | .setLength _ _ | .allocate _ _ => true
  | _ => false

variable {p : Path} {mode : JournalMode} {size : UInt64} {support : DurabilitySupport}

/-- The machine on which a file was found or made at a path, and opened for writing. -/
def openedOn (m : Machine) (t : FileTree) (p : Path) (id : FileId) : Machine :=
  ({ m with tree := t }.openTarget p ⟨true, .file id⟩).2

/-- What can make an opening for writing fail. -/
def OpeningCanFail (P : SystemCall → Verdict → Prop) (m : Machine) (p : Path)
    (size : UInt64) : Prop :=
  p.hasZeroByte = true ∨ (∃ code, m.tree.openOrMake m.workingDirectory p = .error code) ∨
    (∃ mode, CanFail P (.open_ p mode)) ∨ ∃ d, ResizeCanFail P d size

/-- An opening hands out the file grown to the greater of its length and the size asked for; or it
fails, and the file was at most extended, or an ephemeral one was unlinked. -/
theorem ends_openForWrite_journal (hsize : size ≠ 0) {r : Outcome (Handle × Nat)}
    (h : CanEnd P (native patience (Journal.openForWrite Features.posix p mode size support))
      m r m' history) :
    (∃ id t, m.tree.openOrMake m.workingDirectory p = .ok (id, t) ∧
        let n := max (t.content id).length size.toNat
        r = .ok (Journal.writer p mode support ⟨m.nextNumber, p⟩, n) ∧
        m' = (openedOn m t p id).setContent id ((t.content id).setLength n) ∧
        (size.toNat ≤ (t.content id).length →
          ∀ q ∈ requestsOf history, changesLength q = false)) ∨
      (∃ e, r = .error e) ∧ OpeningCanFail P m p size ∧
        ((mode = .pureMemory ∧ .answered (.unlink p) (.ok ()) ∈ history) ∨
          m'.workingDirectory = m.workingDirectory ∧
            (m'.tree = m.tree ∨
              ∃ id t k, m.tree.openOrMake m.workingDirectory p = .ok (id, t) ∧
                m'.tree = t.setContent id ((t.content id).extendTo k))) := by
  unfold Journal.openForWrite at h
  rw [if_neg hsize, native_bind, native_take] at h
  obtain ⟨a, m₁, xs, ys, ha, hr, rfl⟩ := ends_bind.mp h
  obtain ⟨hopencalls, ⟨id, t, hmake, rfl, rfl⟩ | ⟨rfl, ⟨e, rfl⟩, hwhy⟩⟩ := ends_openForWrite ha
  · rw [native_bind] at hr
    obtain ⟨b, m₂, zs, us, hb, hr, rfl⟩ := ends_bind.mp hr
    have hopen : (openedOn m t p id).opened m.nextNumber = some ⟨true, .file id⟩ := by
      simp [openedOn, Machine.openTarget]
    have hgrow := ends_grow hopen (ends_prepare hb)
    rcases hgrow with ⟨rfl, rfl, hcalls⟩ | ⟨⟨e, rfl⟩, ⟨k, rfl⟩, hwhy⟩
    · -- the file was grown, and the handle is given out
      obtain ⟨rest, ⟨rfl, rfl, rfl⟩, rfl⟩ := hr
      refine .inl ⟨id, t, hmake, rfl, rfl, fun hle q hq => ?_⟩
      simp only [requestsOf_append, requestsOf_noted, requestsOf_nil, List.append_nil] at hq
      rcases List.mem_append.mp hq with hq | hq
      · rw [hopencalls q hq]
        rfl
      · rw [hcalls hle q hq]
        rfl
    · -- the file was extended at most, and the rollback does no more than take its name
      simp only at hr
      rw [native_bind] at hr
      obtain ⟨f, m₃, vs, ws, habort, ⟨rfl, rfl, rfl⟩, rfl⟩ := ends_bind.mp hr
      have hname := ends_abort (show (Journal.writer p mode support ⟨m.nextNumber, p⟩).descriptor =
        some ⟨m.nextNumber, p⟩ from rfl) habort
      rw [Journal.unlinkPath?_writer] at hname
      refine .inr ⟨⟨_, rfl⟩, .inr (.inr (.inr ⟨_, hwhy⟩)), ?_⟩
      rcases hname with ⟨htree, hwd⟩ | ⟨q, hq, hcall⟩
      · exact .inr ⟨hwd, .inr ⟨id, t, k, hmake, htree⟩⟩
      · split at hq
        · next hmust =>
          obtain rfl := Option.some.inj hq
          exact .inl ⟨hmust.1, by simp [hcall]⟩
        · exact absurd hq (by simp)
  · obtain ⟨rfl, rfl, rfl⟩ := hr
    refine .inr ⟨⟨_, rfl⟩, ?_, .inr ⟨rfl, .inl rfl⟩⟩
    rcases hwhy with hzero | hmake | hfail
    · exact .inl hzero
    · exact .inr (.inl hmake)
    · exact .inr (.inr (.inl ⟨_, hfail⟩))

end Posix

/-! ## Old bytes stay -/

namespace Journal

/-- An opening that succeeds leaves the file as long as it says, which is the greater of the old
length and the size asked for, with the old bytes in front and zeros behind, and touches no file
that is long enough.  One that fails leaves the old bytes in front, unless it unlinked the file of
an ephemeral journal. -/
theorem openForWrite_never_shrinks {φ : Type} (patience : Nat) (decide : Policy φ) (m : Machine)
    (s : φ) (p : Path) (mode : JournalMode) (size : UInt64) (support : DurabilitySupport) :
    let r := (Posix.native patience (openForWrite Features.posix p mode size support)).run
      decide.handler (m, s)
    let old := (m.fileAt? p).getD Content.empty
    match r.value with
    | .ok (_, n) =>
      n = max old.length size.toNat ∧
        (∃ c, r.world.1.fileAt? p = some c ∧ c.length = n ∧
          c.toBytes = old.toBytes ++ List.replicate (size.toNat - old.length) 0) ∧
        (size.toNat ≤ old.length → ∀ q ∈ r.requests, Posix.changesLength q = false)
    | .error _ =>
      ∀ c, m.fileAt? p = some c →
        (mode = .pureMemory ∧ .answered (.unlink p) (.ok ()) ∈ r.history) ∨
          ∃ c', r.world.1.fileAt? p = some c' ∧ c.toBytes <+: c'.toBytes := by
  intro r old
  by_cases hsize : size = 0
  · subst hsize
    intro c hc
    exact .inr ⟨c, hc, List.prefix_rfl⟩
  · have hends : CanEnd (fun _ _ => True) _ m r.value r.world.1 r.history :=
      Posix.canEnd_run (fun _ _ => trivial) _ (m, s)
    rcases Posix.ends_openForWrite_journal hsize hends with
      ⟨id, t, hmake, hvalue, hworld, hcalls⟩ | ⟨⟨e, hvalue⟩, -, hkept⟩
    · have hold : t.content id = old := FileTree.content_of_openOrMake hmake
      have hopen := (FileTree.openExisting_of_openOrMake hmake).1
      rw [hold] at hvalue hworld hcalls
      rw [hvalue]
      refine ⟨rfl, ⟨old.setLength (max old.length size.toNat), ?_, rfl, ?_⟩, hcalls⟩
      · rw [hworld]
        exact FileTree.readFile?_setContent hopen _
      · rw [Content.toBytes_setLength_of_le (Nat.le_max_left _ _),
          show max old.length size.toNat - old.length = size.toNat - old.length by omega]
    · rw [hvalue]
      intro c hc
      obtain ⟨id, hopen, rfl⟩ := FileTree.openExisting_of_readFile? hc
      rcases hkept with hunlinked | ⟨hwd, htree | ⟨id', t, k, hmake, htree⟩⟩
      · exact .inl hunlinked
      · -- the tree is the one that there was
        refine .inr ⟨m.tree.content id, ?_, List.prefix_rfl⟩
        unfold Machine.fileAt?
        rw [htree, hwd]
        exact hc
      · -- the file that was found is the one that there was, and it was extended at most
        rw [FileTree.openOrMake_of_openExisting hopen] at hmake
        obtain ⟨rfl, rfl⟩ := Prod.mk.inj (Except.ok.inj hmake)
        refine .inr ⟨_, ?_, Content.prefix_toBytes_extendTo _ k⟩
        unfold Machine.fileAt?
        rw [htree, hwd]
        exact FileTree.readFile?_setContent hopen _

end Journal

end WriteAhead
