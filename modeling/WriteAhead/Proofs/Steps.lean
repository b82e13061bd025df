/-
# What a step does to a machine

How the native platform's steps can end on a machine under a policy: what a step yields and what
becomes of the machine when its calls succeed, and that it changes nothing, or only lengthens the
file, when one of them fails.
-/
import WriteAhead.Proofs.Calls

namespace WriteAhead

open Program

namespace Posix

/-! ## Native programs -/

variable {patience : Nat} {α β : Type}

@[simp] theorem native_bind (p : StepProgram α) (f : α → StepProgram β) :
    native patience (p >>= f) = native patience p >>= fun a => native patience (f a) := by
  unfold native
  rw [through_bind]

@[simp] theorem native_take (s : Step) : native patience s.take = serve patience s :=
  bind_done (serve patience s)

/-! ## Size and length -/

variable {P : SystemCall → Verdict → Prop} {m m' : Machine}
  {history : List (Happening System Event)} {d : Descriptor} {id : FileId} {w : Bool}

/-- The size of a journal file is the length of its content. -/
theorem ends_fileSize (hopen : m.opened d.number = some ⟨w, .file id⟩)
    {r : Except JournalError Nat}
    (h : CanEnd P (serve patience (.fileSize d)) m r m' history) :
    m' = m ∧ requestsOf history = [.length d] ∧
      (r = .ok (m.tree.content id).length ∨ CanFail P (.length d) ∧ ∃ e, r = .error e) := by
  obtain ⟨a, m₁, xs, ys, ha, hr, rfl⟩ := ends_bind.mp h
  obtain ⟨reply, hreply, rfl, rfl⟩ := canEnd_once.mp ha
  obtain ⟨rfl, rfl | ⟨hfail, code, rfl⟩⟩ := hreply.length hopen
  · obtain ⟨rfl, rfl, rfl⟩ := hr
    exact ⟨rfl, rfl, .inl rfl⟩
  · obtain ⟨rfl, rfl, rfl⟩ := hr
    exact ⟨rfl, rfl, .inr ⟨hfail, _, rfl⟩⟩

/-- Setting a length cuts or extends the content, or fails without effect. -/
theorem ends_setLength (hopen : m.opened d.number = some ⟨true, .file id⟩) {size : UInt64}
    {r : Except SystemError Unit} (h : CanEnd P (setLength patience d size) m r m' history) :
    (r = .ok () ∧ m' = m.setContent id ((m.tree.content id).setLength size.toNat)) ∨
      m' = m ∧ (Machine.offsetLimit ≤ size.toNat ∨ CanFail P (.setLength d size)) ∧
        ∃ e, r = .error e := by
  unfold setLength at h
  split at h
  · next hsize =>
    obtain ⟨rfl, rfl, rfl⟩ := h
    exact .inr ⟨rfl, .inl hsize, _, rfl⟩
  · obtain ⟨reply, m₁, xs, ys, ha, ⟨rfl, rfl, rfl⟩, rfl⟩ := ends_bind.mp h
    obtain ⟨hreply, -⟩ := answers_of_persist (by simp) ha
    rcases hreply.setLength hopen with ⟨rfl, rfl⟩ | ⟨rfl, hwhy, code, rfl⟩
    · exact .inl ⟨rfl, rfl⟩
    · exact .inr ⟨rfl, hwhy, _, rfl⟩

/-! ## Resizing -/

/-- What can make a resize fail. -/
def ResizeCanFail (P : SystemCall → Verdict → Prop) (d : Descriptor) (size : UInt64) : Prop :=
  Machine.offsetLimit ≤ size.toNat ∨ CanFail P (.length d) ∨ CanFail P (.setLength d size) ∨
    ∃ code, P (.allocate d size) (.fail code) ∧
      SystemError.isUnsupported (.code code) = false

theorem ends_pin (hopen : m.opened d.number = some ⟨true, .file id⟩) {size : UInt64}
    {r : Except JournalError Unit}
    (h : CanEnd P ((resizer patience d).pin size) m r m' history) :
    (r = .ok () ∧ m' = m.setContent id ((m.tree.content id).setLength size.toNat)) ∨
      m' = m ∧ ResizeCanFail P d size ∧ ∃ e, r = .error e := by
  unfold Resizer.pin at h
  obtain ⟨a, m₁, xs, ys, ha, hr, rfl⟩ := ends_bind.mp h
  rcases ends_setLength hopen ha with ⟨rfl, rfl⟩ | ⟨rfl, hwhy, e, rfl⟩
  · obtain ⟨rfl, rfl, rfl⟩ := hr
    exact .inl ⟨rfl, rfl⟩
  · obtain ⟨rfl, rfl, rfl⟩ := hr
    refine .inr ⟨rfl, ?_, _, rfl⟩
    rcases hwhy with hsize | hfail
    · exact .inl hsize
    · exact .inr (.inr (.inl hfail))

/-- The machine that a resize of the file `id` to `size` can leave, with what it yields. -/
def Resized (P : SystemCall → Verdict → Prop) (m : Machine) (d : Descriptor) (id : FileId)
    (size : UInt64) (r : Except JournalError Unit) (m' : Machine) : Prop :=
  (r = .ok () ∧ m' = m.setContent id ((m.tree.content id).setLength size.toNat)) ∨
    (∃ k, m' = m.setContent id ((m.tree.content id).extendTo k)) ∧
      ResizeCanFail P d size ∧ ∃ e, r = .error e

theorem Resized.of_pin {size : UInt64} {r : Except JournalError Unit}
    (h : (r = .ok () ∧ m' = m.setContent id ((m.tree.content id).setLength size.toNat)) ∨
      m' = m ∧ ResizeCanFail P d size ∧ ∃ e, r = .error e) : Resized P m d id size r m' := by
  rcases h with h | ⟨rfl, hwhy, he⟩
  · exact .inl h
  · exact .inr ⟨⟨0, by simp [Content.extendTo]⟩, hwhy, he⟩

/-- A preallocation that leaves the file too long is made good when the length is pinned. -/
theorem ends_growTo (hopen : m.opened d.number = some ⟨true, .file id⟩) {size : UInt64}
    (hsize : size ≠ 0) {r : Except JournalError Unit}
    (h : CanEnd P ((resizer patience d).growTo size) m r m' history) :
    Resized P m d id size r m' := by
  unfold Resizer.growTo at h
  obtain ⟨a, m₁, xs, ys, ha, hr, rfl⟩ := ends_bind.mp h
  obtain ⟨reply, hreply, rfl, rfl⟩ := canEnd_once.mp ha
  rcases hreply.allocate hopen with ⟨rfl, k, -, rfl⟩ | ⟨rfl, code, rfl, hwhy⟩
  · -- pinning the length takes back what was reserved beyond it
    have hopen' : (m.setContent id ((m.tree.content id).extendTo k)).opened d.number =
        some ⟨true, .file id⟩ := hopen
    rcases ends_pin hopen' hr with ⟨rfl, rfl⟩ | ⟨rfl, hwhy, e, rfl⟩
    · refine .inl ⟨rfl, ?_⟩
      rw [Machine.setContent_setContent, Machine.tree_setContent,
        Machine.content_setContent_self, Content.setLength_extendTo]
    · exact .inr ⟨⟨k, rfl⟩, hwhy, e, rfl⟩
  · by_cases hunsupported : SystemError.isUnsupported (.code code) = true
    · -- no space is reserved, and the file is extended by its length alone
      simp only [ofSystem, resizer, hunsupported, if_true] at hr
      obtain ⟨_, _, _, zs, ⟨_, ⟨rfl, rfl, rfl⟩, rfl⟩, hpin, rfl⟩ := ends_bind.mp hr
      exact .of_pin (ends_pin hopen hpin)
    · simp only [ofSystem, resizer, hunsupported] at hr
      obtain ⟨rfl, rfl, rfl⟩ := hr
      refine .of_pin (.inr ⟨rfl, ?_, _, rfl⟩)
      rcases hwhy with hzero | hlarge | hfail
      · exact absurd hzero hsize
      · exact .inl hlarge
      · exact .inr (.inr (.inr ⟨code, hfail, by simpa using hunsupported⟩))

/-- A resize gives the file exactly the length, or fails and has at most extended it. -/
theorem ends_resize (hopen : m.opened d.number = some ⟨true, .file id⟩) {size : UInt64}
    {r : Except JournalError Unit}
    (h : CanEnd P (serve patience (.resize d size)) m r m' history) :
    Resized P m d id size r m' := by
  obtain ⟨a, m₁, xs, ys, ha, hr, rfl⟩ := ends_bind.mp h
  obtain ⟨reply, hreply, rfl, rfl⟩ := canEnd_once.mp ha
  obtain ⟨rfl, rfl | ⟨hfail, code, rfl⟩⟩ := hreply.length hopen
  · simp only [ofSystem] at hr
    split at hr
    · next hlt =>
      have hsize : size ≠ 0 := by
        rintro rfl
        exact absurd hlt (Nat.not_lt_zero _)
      exact ends_growTo hopen hsize hr
    · exact .of_pin (ends_pin hopen hr)
  · obtain ⟨rfl, rfl, rfl⟩ := hr
    exact .of_pin (.inr ⟨rfl, .inr (.inl hfail), _, rfl⟩)

/-! ## Transfers and flushes -/

/-- A write lays a first part of the bytes over the content, or fails without effect. -/
theorem ends_writeAt (hopen : m.opened d.number = some ⟨true, .file id⟩) {bytes : Bytes}
    {offset : UInt64} (hoffset : offset.toNat + bytes.length < Machine.offsetLimit)
    {r : Except SystemError Nat}
    (h : CanEnd P (serve patience (.writeAt d bytes offset)) m r m' history) :
    (∃ n ≤ bytes.length, r = .ok n ∧
        m' = m.setContent id ((m.tree.content id).overlay offset.toNat (bytes.take n)) ∧
        (n = 0 → bytes = [] ∨ P (.writeAt d bytes offset) (.atMost 0))) ∨
      m' = m ∧ CanFail P (.writeAt d bytes offset) ∧ ∃ e, r = .error e := by
  obtain ⟨reply, hreply, rfl, rfl⟩ := canEnd_once.mp h
  rcases hreply.writeAt hopen hoffset with ⟨n, hn, rfl, rfl, hzero⟩ | ⟨rfl, hfail, code, rfl⟩
  · exact .inl ⟨n, hn, rfl, rfl, hzero⟩
  · exact .inr ⟨rfl, hfail, _, rfl⟩

/-- A read yields the bytes of a first part of the range, and says how many they are. -/
theorem ends_readAt (hopen : m.opened d.number = some ⟨false, .file id⟩) {count : Nat}
    {offset : UInt64} (hoffset : offset.toNat + count < Machine.offsetLimit)
    {r : Except SystemError Transfer}
    (h : CanEnd P (serve patience (.readAt d count offset)) m r m' history) :
    m' = m ∧
      ((∃ n ≤ count, r = .ok ⟨((m.tree.content id).slice offset.toNat n).length,
            (m.tree.content id).slice offset.toNat n⟩ ∧
          (n = 0 → count = 0 ∨ P (.readAt d count offset) (.atMost 0))) ∨
        CanFail P (.readAt d count offset) ∧ ∃ e, r = .error e) := by
  obtain ⟨a, m₁, xs, ys, ha, hr, rfl⟩ := ends_bind.mp h
  obtain ⟨reply, hreply, rfl, rfl⟩ := canEnd_once.mp ha
  obtain ⟨rfl, ⟨n, hn, rfl, hzero⟩ | ⟨hfail, code, rfl⟩⟩ := hreply.readAt hopen hoffset
  · obtain ⟨rfl, rfl, rfl⟩ := hr
    exact ⟨rfl, .inl ⟨n, hn, rfl, hzero⟩⟩
  · obtain ⟨rfl, rfl, rfl⟩ := hr
    exact ⟨rfl, .inr ⟨hfail, _, rfl⟩⟩

theorem ends_sync {f : OpenFile} (hopen : m.opened d.number = some f)
    {r : Except SystemError Unit} (h : CanEnd P (sync patience d) m r m' history) :
    m' = m ∧ (r = .ok () ∨ CanFail P (.sync d) ∧ ∃ e, r = .error e) := by
  obtain ⟨reply, m₁, xs, ys, ha, ⟨rfl, rfl, rfl⟩, rfl⟩ := ends_bind.mp h
  obtain ⟨hreply, -⟩ := answers_of_persist (by simp) ha
  obtain ⟨rfl, rfl | ⟨hfail, code, rfl⟩⟩ := hreply.sync hopen
  · exact ⟨rfl, .inl rfl⟩
  · exact ⟨rfl, .inr ⟨hfail, _, rfl⟩⟩

/-- A flush changes nothing that a program can see. -/
theorem ends_flush {f : OpenFile} (hopen : m.opened d.number = some f)
    {r : Except JournalError Unit}
    (h : CanEnd P (serve patience (.flush d)) m r m' history) :
    m' = m ∧ (r = .ok () ∨ CanFail P (.sync d) ∧ ∃ e, r = .error e) := by
  obtain ⟨a, m₁, xs, ys, ha, hr, rfl⟩ := ends_bind.mp h
  obtain ⟨rfl, rfl | ⟨hfail, e, rfl⟩⟩ := ends_sync hopen ha
  · obtain ⟨rfl, rfl, rfl⟩ := hr
    exact ⟨rfl, .inl rfl⟩
  · obtain ⟨rfl, rfl, rfl⟩ := hr
    exact ⟨rfl, .inr ⟨hfail, _, rfl⟩⟩

/-! ## Opening, unlinking and closing -/

variable {p : Path}

/-- Opening a path makes no call but that. -/
theorem ends_openPath {mode : OpenMode} {r : Except SystemError Descriptor}
    (h : CanEnd P (openPath patience p mode) m r m' history) :
    (∀ q ∈ requestsOf history, q = .open_ p mode) ∧
      ((∃ reply, m.Answers P (.open_ p mode) reply m' ∧ r = ofSystem reply) ∨
        m' = m ∧ p.hasZeroByte = true ∧ r = .error .zeroByteInPath) := by
  unfold openPath at h
  split at h
  · next hzero =>
    obtain ⟨rfl, rfl, rfl⟩ := h
    exact ⟨by simp, .inr ⟨rfl, hzero, rfl⟩⟩
  · obtain ⟨reply, m₁, xs, ys, ha, ⟨rfl, rfl, rfl⟩, rfl⟩ := ends_bind.mp h
    obtain ⟨hreply, hcalls⟩ := answers_of_persist (by simp) ha
    exact ⟨by simpa using hcalls, .inl ⟨reply, hreply, rfl⟩⟩

/-- Opening for writing finds the file or makes it, or fails without effect. -/
theorem ends_openForWrite {flags : OpenFlags} {r : Except SystemError Descriptor}
    (h : CanEnd P (serve patience (.openForWrite p flags)) m r m' history) :
    (∀ q ∈ requestsOf history, q = .open_ p (.write flags.synchronous flags.unbuffered)) ∧
      ((∃ id t, m.tree.openOrMake m.workingDirectory p = .ok (id, t) ∧
          r = .ok ⟨m.nextNumber, p⟩ ∧
          m' = ({ m with tree := t }.openTarget p ⟨true, .file id⟩).2) ∨
        m' = m ∧ (∃ e, r = .error e) ∧
          (p.hasZeroByte = true ∨ (∃ code, m.tree.openOrMake m.workingDirectory p = .error code) ∨
            CanFail P (.open_ p (.write flags.synchronous flags.unbuffered)))) := by
  obtain ⟨hcalls, ⟨reply, hreply, rfl⟩ | ⟨rfl, hzero, rfl⟩⟩ := ends_openPath h
  · refine ⟨hcalls, ?_⟩
    rcases hreply.openWrite with ⟨id, t, hmake, rfl, rfl⟩ | ⟨rfl, ⟨code, rfl⟩, hwhy⟩
    · exact .inl ⟨id, t, hmake, rfl, rfl⟩
    · exact .inr ⟨rfl, ⟨_, rfl⟩, .inr hwhy⟩
  · exact ⟨hcalls, .inr ⟨rfl, ⟨_, rfl⟩, .inl hzero⟩⟩

/-- Opening for reading finds what is there, or fails without effect. -/
theorem ends_openRead {r : Except SystemError Descriptor}
    (h : CanEnd P (openPath patience p .read) m r m' history) :
    (∃ target, m.tree.openExisting m.workingDirectory p = .ok target ∧
        r = .ok ⟨m.nextNumber, p⟩ ∧ m' = (m.openTarget p ⟨false, target⟩).2) ∨
      m' = m ∧ (∃ e, r = .error e) ∧
        (p.hasZeroByte = true ∨ (∃ code, m.tree.openExisting m.workingDirectory p = .error code) ∨
          CanFail P (.open_ p .read)) := by
  obtain ⟨-, ⟨reply, hreply, rfl⟩ | ⟨rfl, hzero, rfl⟩⟩ := ends_openPath h
  · rcases hreply.openRead with ⟨target, htarget, rfl, rfl⟩ | ⟨rfl, ⟨code, rfl⟩, hwhy⟩
    · exact .inl ⟨target, htarget, rfl, rfl⟩
    · exact .inr ⟨rfl, ⟨_, rfl⟩, .inr hwhy⟩
  · exact .inr ⟨rfl, ⟨_, rfl⟩, .inl hzero⟩

/-- An unlink removes the name by a call that succeeds, or does nothing. -/
theorem ends_unlink {r : Except SystemError Unit}
    (h : CanEnd P (serve patience (.unlink p)) m r m' history) :
    (∀ q ∈ requestsOf history, q = .unlink p) ∧
      (.answered (.unlink p) (.ok ()) ∈ history ∧ r = .ok () ∧
          (∃ t, m.tree.unlink m.workingDirectory p = .ok t ∧ m' = { m with tree := t }) ∨
        m' = m ∧ .answered (.unlink p) (.ok ()) ∉ history ∧ (∃ e, r = .error e) ∧
          (p.hasZeroByte = true ∨ (∃ code, m.tree.unlink m.workingDirectory p = .error code) ∨
            CanFail P (.unlink p))) := by
  have h' : CanEnd P (unlink p) m r m' history := h
  unfold unlink at h'
  split at h'
  · next hzero =>
    obtain ⟨rfl, rfl, rfl⟩ := h'
    exact ⟨by simp, .inr ⟨rfl, by simp, ⟨_, rfl⟩, .inl hzero⟩⟩
  · obtain ⟨reply, hreply, rfl, rfl⟩ := canEnd_once.mp h'
    refine ⟨by simp, ?_⟩
    rcases hreply.unlink with ⟨rfl, ht⟩ | ⟨rfl, code, rfl, hwhy⟩
    · exact .inl ⟨List.mem_singleton.mpr rfl, rfl, ht⟩
    · refine .inr ⟨rfl, by simp, ⟨_, rfl⟩, .inr ?_⟩
      rcases hwhy with hcode | hfail
      · exact .inl ⟨code, hcode⟩
      · exact .inr hfail

/-- A close forgets what was open under its descriptor. -/
theorem ends_close {r : Except SystemError Unit}
    (h : CanEnd P (once (.close d)) m r m' history) :
    (m' = m.forget d.number ∨ m' = m ∧ m.opened d.number = none) ∧
      (r = .ok () ∨ (CanFail P (.close d) ∨ m.opened d.number = none) ∧ ∃ e, r = .error e) := by
  obtain ⟨reply, hreply, rfl, rfl⟩ := canEnd_once.mp h
  obtain ⟨hm, rfl | ⟨hwhy, code, rfl⟩⟩ := hreply.close
  · exact ⟨hm, .inl rfl⟩
  · exact ⟨hm, .inr ⟨hwhy, _, rfl⟩⟩

/-! ## Syncing a directory -/

/-- What can make syncing a directory fail, when it can be opened. -/
def SyncingCanFail (P : SystemCall → Verdict → Prop) (p : Path) : Prop :=
  p.hasZeroByte = true ∨ CanFail P (.open_ p .read) ∨
    ∃ d, CanFail P (.fileSystem d) ∨ CanFail P (.sync d)

theorem ends_policyOf {f : OpenFile} (hopen : m.opened d.number = some f)
    {r : Except JournalError SyncPolicy} (h : CanEnd P (policyOf d) m r m' history) :
    m' = m ∧ ((∃ policy, r = .ok policy) ∨ CanFail P (.fileSystem d) ∧ ∃ e, r = .error e) := by
  obtain ⟨a, m₁, xs, ys, ha, hr, rfl⟩ := ends_bind.mp h
  obtain ⟨reply, hreply, rfl, rfl⟩ := canEnd_once.mp ha
  obtain ⟨rfl, ⟨word, rfl⟩ | ⟨hfail, code, rfl⟩⟩ := hreply.fileSystem hopen
  · obtain ⟨rfl, rfl, rfl⟩ := hr
    exact ⟨rfl, .inl ⟨_, rfl⟩⟩
  · obtain ⟨rfl, rfl, rfl⟩ := hr
    exact ⟨rfl, .inr ⟨hfail, _, rfl⟩⟩

theorem ends_syncDirectory {f : OpenFile} (hopen : m.opened d.number = some f)
    {r : Except JournalError Unit} (h : CanEnd P (syncDirectory patience p d) m r m' history) :
    m' = m ∧ (r = .ok () ∨ (CanFail P (.fileSystem d) ∨ CanFail P (.sync d)) ∧
      ∃ e, r = .error e) := by
  obtain ⟨a, m₁, xs, ys, ha, hr, rfl⟩ := ends_bind.mp h
  obtain ⟨rfl, ⟨policy, rfl⟩ | ⟨hfail, e, rfl⟩⟩ := ends_policyOf hopen ha
  · cases policy with
    | allowed =>
      obtain ⟨b, m₂, us, vs, hb, hr, rfl⟩ := ends_bind.mp hr
      obtain ⟨rfl, rfl | ⟨hfail, e, rfl⟩⟩ := ends_sync hopen hb
      · obtain ⟨rfl, rfl, rfl⟩ := hr
        exact ⟨rfl, .inl rfl⟩
      · obtain ⟨rfl, rfl, rfl⟩ := hr
        exact ⟨rfl, .inr ⟨.inr hfail, _, rfl⟩⟩
    | notAllowed =>
      obtain ⟨rest, ⟨rfl, rfl, rfl⟩, rfl⟩ := hr
      exact ⟨rfl, .inl rfl⟩
  · obtain ⟨rfl, rfl, rfl⟩ := hr
    exact ⟨rfl, .inr ⟨.inl hfail, _, rfl⟩⟩

/-- Syncing the directory of a path opens a directory for a while, and leaves all else alone. -/
theorem ends_syncDirectoryFor {target : FileTree.Target}
    (htarget : m.tree.openExisting m.workingDirectory p.directory = .ok target)
    {r : Except JournalError Unit}
    (h : CanEnd P (serve patience (.syncDirectoryFor p)) m r m' history) :
    m.Keeps m' ∧ (r = .ok () ∨ SyncingCanFail P p.directory ∧ ∃ e, r = .error e) := by
  obtain ⟨a, m₁, xs, ys, ha, hr, rfl⟩ := ends_bind.mp h
  rcases ends_openRead ha with ⟨target', -, rfl, rfl⟩ | ⟨rfl, ⟨e, rfl⟩, hwhy⟩
  · obtain ⟨b, m₂, us, vs, hb, hr, rfl⟩ := ends_bind.mp hr
    have hopen : (m.openTarget p.directory ⟨false, target'⟩).2.opened m.nextNumber =
        some ⟨false, target'⟩ := by
      simp [Machine.openTarget]
    obtain ⟨rfl, hsynced⟩ := ends_syncDirectory hopen hb
    obtain ⟨c, m₃, ws, zs, hc, ⟨rfl, rfl, rfl⟩, rfl⟩ := ends_bind.mp hr
    refine ⟨?_, ?_⟩
    · -- the close forgets at most the descriptor that was opened here
      have hkeeps := m.keeps_openTarget p.directory ⟨false, target'⟩
      rcases (ends_close hc).1 with rfl | ⟨rfl, -⟩
      · exact hkeeps.forget (Nat.le_refl _)
      · exact hkeeps
    · rcases hsynced with rfl | ⟨hfail, he⟩
      · exact .inl rfl
      · exact .inr ⟨.inr (.inr ⟨_, hfail⟩), he⟩
  · obtain ⟨rfl, rfl, rfl⟩ := hr
    refine ⟨.refl _, .inr ⟨?_, _, rfl⟩⟩
    rcases hwhy with hzero | ⟨code, hcode⟩ | hfail
    · exact .inl hzero
    · exact absurd (htarget.symm.trans hcode) (by simp)
    · exact .inr (.inl hfail)

end Posix

end WriteAhead
