/-
# Calls under a policy

What a machine can answer to a call when a policy decides about it, and to a call that is made
again while a signal interrupts it.

* `Answers.of_error` : a call that fails changes nothing, a close apart;
* `answers_of_persist` : making a call with patience is answered as making it once.
-/
import WriteAhead.Platform.Posix
import WriteAhead.Proofs.Endings
import WriteAhead.System.Machine

namespace WriteAhead

open Program

/-! ## What a policy allows -/

/-- A policy decides about every call as `P` allows. -/
def Policy.Within {φ : Type} (decide : Policy φ) (P : SystemCall → Verdict → Prop) : Prop :=
  ∀ c s, P c (decide c s).1

/-- Every policy decides as it may if anything may be decided. -/
theorem Policy.within_true {φ : Type} (decide : Policy φ) : decide.Within fun _ _ => True :=
  fun _ _ => trivial

/-- The policy that lets every call do what it does. -/
def Policy.unhindered : Policy Unit := fun _ s => (.proceed, s)

/-- A call can be made to fail with a code. -/
def CanFail (P : SystemCall → Verdict → Prop) (c : SystemCall) : Prop :=
  ∃ code, P c (.fail code)

/-- A transfer moves no more than it was asked to. -/
theorem Verdict.limit_le (v : Verdict) (count : Nat) : v.limit count ≤ count := by
  cases v with
  | atMost n => exact Nat.min_le_right n count
  | _ => exact Nat.le_refl count

/-- The call only asks, or forces to stable storage what was written before. -/
def SystemCall.isQuery : SystemCall → Bool
  | .sync _ | .length _ | .fileSystem _ | .readAt _ _ _ | .inspect _ => true
  | _ => false

namespace Machine

/-- The machine can answer a call with `r`, and be `m'` afterwards, as `P` allows. -/
def Answers (P : SystemCall → Verdict → Prop) (m : Machine) (c : SystemCall) (r : c.Reply)
    (m' : Machine) : Prop :=
  ∃ v, P c v ∧ m.answer v c = (r, m')

variable {P : SystemCall → Verdict → Prop} {m m' : Machine} {c : SystemCall}

/-- A call fails by verdict, or does what a verdict lets it do. -/
theorem Answers.cases {r : c.Reply} (h : m.Answers P c r m') :
    (∃ code, P c (.fail code) ∧ r = .error code ∧ m' = m.afterFailure c) ∨
      ∃ v, P c v ∧ m.perform v c = (r, m') := by
  obtain ⟨v, hv, h⟩ := h
  cases v with
  | fail code =>
    obtain ⟨rfl, rfl⟩ := Prod.mk.inj h
    exact .inl ⟨code, hv, rfl, rfl⟩
  | proceed | fileSystem | atMost | extendTo => exact .inr ⟨_, hv, h⟩

/-- What does not succeed in doing its work does nothing. -/
theorem eq_of_perform_error {v : Verdict} {code : Int}
    (h : m.perform v c = (.error code, m')) : m' = m := by
  cases c with
  | open_ p mode =>
    cases mode with
    | read =>
      simp only [perform, openPath] at h
      split at h <;> simp_all
    | write synchronous direct =>
      simp only [perform, openPath] at h
      split at h <;> simp_all
  | close d =>
    simp only [perform, close] at h
    split at h <;> simp_all
  | setLength d n =>
    simp only [perform, setLength] at h
    split at h
    · simp_all
    · split at h <;> simp_all
    · simp_all
  | allocate d n =>
    simp only [perform, allocate] at h
    split at h
    · simp_all
    · split at h <;> simp_all
  | writeAt d bytes offset =>
    simp only [perform, writeAt] at h
    split at h
    · simp_all
    · split at h
      · split at h <;> simp_all
      · simp_all
  | unlink p =>
    simp only [perform, unlink] at h
    split at h <;> simp_all
  | sync | length | fileSystem | readAt | inspect =>
    simp only [perform] at h
    exact (Prod.mk.inj h).2.symm

theorem afterFailure_eq (hc : ∀ d, c ≠ .close d) : m.afterFailure c = m := by
  cases c with
  | close d => exact absurd rfl (hc d)
  | _ => rfl

/-- A call that fails changes nothing, unless it closes. -/
theorem Answers.of_error (hc : ∀ d, c ≠ .close d) {code : Int}
    (h : m.Answers P c (.error code) m') : m' = m := by
  rcases h.cases with ⟨_, -, -, hm⟩ | ⟨v, -, h⟩
  · rw [hm, afterFailure_eq hc]
  · exact eq_of_perform_error h

/-- A call that only asks changes nothing. -/
theorem Answers.of_isQuery (hc : c.isQuery = true) {r : c.Reply} (h : m.Answers P c r m') :
    m' = m := by
  rcases h.cases with ⟨_, -, -, rfl⟩ | ⟨v, -, hv⟩
  · exact afterFailure_eq (by rintro d rfl; exact absurd hc (by simp [SystemCall.isQuery]))
  · cases c with
    | sync | length | fileSystem | readAt | inspect =>
      simp only [perform] at hv
      exact (Prod.mk.inj hv).2.symm
    | _ => exact absurd hc (by simp [SystemCall.isQuery])

/-! ## The content of a file -/

/-- The content of the regular file that a path leads to. -/
def fileAt? (m : Machine) (p : Path) : Option Content :=
  m.tree.readFile? m.workingDirectory p

@[simp] theorem tree_setContent (m : Machine) (id : FileId) (c : Content) :
    (m.setContent id c).tree = m.tree.setContent id c := rfl

@[simp] theorem content_setContent_self (t : FileTree) (id : FileId) (c : Content) :
    (t.setContent id c).content id = c := by
  rw [FileTree.content_setContent, if_pos rfl]

@[simp] theorem setContent_content (m : Machine) (id : FileId) :
    m.setContent id (m.tree.content id) = m := by
  have hcontent : (fun k => if k = id then m.tree.content id else m.tree.content k) =
      m.tree.content := by
    funext k
    by_cases hk : k = id <;> simp [hk]
  unfold setContent FileTree.setContent
  rw [hcontent]

@[simp] theorem setContent_setContent (m : Machine) (id : FileId) (c c' : Content) :
    (m.setContent id c).setContent id c' = m.setContent id c' := by
  have hcontent : (fun k => if k = id then c' else (m.tree.setContent id c).content k) =
      fun k => if k = id then c' else m.tree.content k := by
    funext k
    by_cases hk : k = id <;> simp [hk, FileTree.content_setContent]
  unfold setContent
  rw [FileTree.setContent, hcontent]
  rfl

/-! ## Calls on an open file -/

variable {d : Descriptor} {id : FileId} {w : Bool}

/-- An open file has the length of its content. -/
theorem Answers.length (hopen : m.opened d.number = some ⟨w, .file id⟩)
    {r : Except Int Nat} (h : m.Answers P (.length d) r m') :
    m' = m ∧ (r = .ok (m.tree.content id).length ∨
      CanFail P (.length d) ∧ ∃ code, r = .error code) := by
  rcases h.cases with ⟨code, hfail, rfl, rfl⟩ | ⟨v, -, hv⟩
  · exact ⟨rfl, .inr ⟨⟨code, hfail⟩, code, rfl⟩⟩
  · simp only [perform, lengthOf, hopen] at hv
    obtain ⟨rfl, rfl⟩ := Prod.mk.inj hv
    exact ⟨rfl, .inl rfl⟩

/-- A file open for writing can be given any length that the system takes. -/
theorem Answers.setLength (hopen : m.opened d.number = some ⟨true, .file id⟩) {n : UInt64}
    {r : Except Int Unit} (h : m.Answers P (.setLength d n) r m') :
    (r = .ok () ∧ m' = m.setContent id ((m.tree.content id).setLength n.toNat)) ∨
      m' = m ∧ (offsetLimit ≤ n.toNat ∨ CanFail P (.setLength d n)) ∧
        ∃ code, r = .error code := by
  rcases h.cases with ⟨code, hfail, rfl, rfl⟩ | ⟨v, -, hv⟩
  · exact .inr ⟨rfl, .inr ⟨code, hfail⟩, code, rfl⟩
  · simp only [perform, Machine.setLength, hopen] at hv
    split at hv
    · obtain ⟨rfl, rfl⟩ := Prod.mk.inj hv
      exact .inl ⟨rfl, rfl⟩
    · next hn =>
      obtain ⟨rfl, rfl⟩ := Prod.mk.inj hv
      exact .inr ⟨rfl, .inl (Nat.le_of_not_lt hn), _, rfl⟩

/-- An allocation extends a file open for writing at least to the length that was asked for. -/
theorem Answers.allocate (hopen : m.opened d.number = some ⟨true, .file id⟩) {n : UInt64}
    {r : Except Int Unit} (h : m.Answers P (.allocate d n) r m') :
    (r = .ok () ∧ ∃ k, n.toNat ≤ k ∧
        m' = m.setContent id ((m.tree.content id).extendTo k)) ∨
      m' = m ∧ ∃ code, r = .error code ∧
        (n = 0 ∨ offsetLimit ≤ n.toNat ∨ P (.allocate d n) (.fail code)) := by
  rcases h.cases with ⟨code, hfail, rfl, rfl⟩ | ⟨v, -, hv⟩
  · exact .inr ⟨rfl, code, rfl, .inr (.inr hfail)⟩
  · simp only [perform, Machine.allocate, hopen] at hv
    split at hv
    · next hn =>
      obtain ⟨rfl, rfl⟩ := Prod.mk.inj hv
      refine .inr ⟨rfl, _, rfl, ?_⟩
      rcases hn with hn | hn
      · exact .inl hn
      · exact .inr (.inl hn)
    · obtain ⟨rfl, rfl⟩ := Prod.mk.inj hv
      exact .inl ⟨rfl, _, Nat.le_max_left _ _, rfl⟩

/-- Only a file that is open for writing can be given a length. -/
theorem Answers.setLength_ok {n : UInt64} (h : m.Answers P (.setLength d n) (.ok ()) m') :
    ∃ id, m.opened d.number = some ⟨true, .file id⟩ ∧
      m' = m.setContent id ((m.tree.content id).setLength n.toNat) := by
  rcases h.cases with ⟨_, -, hr, -⟩ | ⟨v, -, hv⟩
  · exact absurd hr (by simp)
  · simp only [perform, Machine.setLength] at hv
    split at hv
    · exact absurd hv (by simp)
    · next id hopen =>
      split at hv
      · exact ⟨id, hopen, (Prod.mk.inj hv).2.symm⟩
      · exact absurd hv (by simp)
    · exact absurd hv (by simp)

/-- Only a file that is open for writing can be extended by an allocation. -/
theorem Answers.allocate_ok {n : UInt64} (h : m.Answers P (.allocate d n) (.ok ()) m') :
    ∃ id k, m.opened d.number = some ⟨true, .file id⟩ ∧ n.toNat ≤ k ∧
      m' = m.setContent id ((m.tree.content id).extendTo k) := by
  rcases h.cases with ⟨_, -, hr, -⟩ | ⟨v, -, hv⟩
  · exact absurd hr (by simp)
  · simp only [perform, Machine.allocate] at hv
    split at hv
    · exact absurd hv (by simp)
    · split at hv
      · next id hopen => exact ⟨id, _, hopen, Nat.le_max_left _ _, (Prod.mk.inj hv).2.symm⟩
      · exact absurd hv (by simp)

/-- The length that is reported is that of what is open. -/
theorem Answers.length_ok {n : Nat} (h : m.Answers P (.length d) (.ok n) m') :
    m.lengthOf d = .ok n := by
  rcases h.cases with ⟨_, -, hr, -⟩ | ⟨v, -, hv⟩
  · exact absurd hr (by simp)
  · exact (Prod.mk.inj hv).1

/-- A write lays a first part of the bytes over the content.  The part is not empty unless the
bytes are, or the call may move nothing. -/
theorem Answers.writeAt (hopen : m.opened d.number = some ⟨true, .file id⟩) {bytes : Bytes}
    {offset : UInt64} (hoffset : offset.toNat + bytes.length < offsetLimit) {r : Except Int Nat}
    (h : m.Answers P (.writeAt d bytes offset) r m') :
    (∃ n ≤ bytes.length, r = .ok n ∧
        m' = m.setContent id ((m.tree.content id).overlay offset.toNat (bytes.take n)) ∧
        (n = 0 → bytes = [] ∨ P (.writeAt d bytes offset) (.atMost 0))) ∨
      m' = m ∧ CanFail P (.writeAt d bytes offset) ∧ ∃ code, r = .error code := by
  rcases h.cases with ⟨code, hfail, rfl, rfl⟩ | ⟨v, hv, hperform⟩
  · exact .inr ⟨rfl, ⟨code, hfail⟩, code, rfl⟩
  · have hlimit : v.limit bytes.length ≤ bytes.length := v.limit_le bytes.length
    have hpart : ¬ offsetLimit ≤ offset.toNat + (bytes.take (v.limit bytes.length)).length := by
      rw [List.length_take]
      omega
    have hstart : ¬ offsetLimit ≤ offset.toNat := by omega
    simp only [perform, Machine.writeAt, hopen, if_neg hpart, if_neg hstart] at hperform
    obtain ⟨rfl, rfl⟩ := Prod.mk.inj hperform
    refine .inl ⟨v.limit bytes.length, hlimit, ?_, rfl, fun hzero => ?_⟩
    · rw [List.length_take, Nat.min_eq_left hlimit]
    · cases v with
      | atMost n =>
        rcases Nat.min_eq_zero_iff.mp hzero with rfl | hnil
        · exact .inr hv
        · exact .inl (List.length_eq_zero_iff.mp hnil)
      | _ => exact .inl (List.length_eq_zero_iff.mp hzero)

/-- A read yields the bytes of a first part of the range.  The part is not empty unless the range
is, or the call may move nothing. -/
theorem Answers.readAt (hopen : m.opened d.number = some ⟨false, .file id⟩) {count : Nat}
    {offset : UInt64} (hoffset : offset.toNat + count < offsetLimit) {r : Except Int Bytes}
    (h : m.Answers P (.readAt d count offset) r m') :
    m' = m ∧
      ((∃ n ≤ count, r = .ok ((m.tree.content id).slice offset.toNat n) ∧
          (n = 0 → count = 0 ∨ P (.readAt d count offset) (.atMost 0))) ∨
        CanFail P (.readAt d count offset) ∧ ∃ code, r = .error code) := by
  rcases h.cases with ⟨code, hfail, rfl, rfl⟩ | ⟨v, hv, hperform⟩
  · exact ⟨rfl, .inr ⟨⟨code, hfail⟩, code, rfl⟩⟩
  · have hlimit : v.limit count ≤ count := v.limit_le count
    have hpart : ¬ offsetLimit ≤ offset.toNat + v.limit count := by omega
    have hstart : ¬ offsetLimit ≤ offset.toNat := by omega
    simp only [perform, Machine.readAt, hopen, if_neg hpart, if_neg hstart] at hperform
    obtain ⟨rfl, rfl⟩ := Prod.mk.inj hperform
    refine ⟨rfl, .inl ⟨v.limit count, hlimit, rfl, fun hzero => ?_⟩⟩
    cases v with
    | atMost n =>
      rcases Nat.min_eq_zero_iff.mp hzero with rfl | hcount
      · exact .inr hv
      · exact .inl hcount
    | _ => exact .inl hzero

/-- What is open can be synced, and is asked for the type of its file system. -/
theorem Answers.sync {f : OpenFile} (hopen : m.opened d.number = some f) {r : Except Int Unit}
    (h : m.Answers P (.sync d) r m') :
    m' = m ∧ (r = .ok () ∨ CanFail P (.sync d) ∧ ∃ code, r = .error code) := by
  rcases h.cases with ⟨code, hfail, rfl, rfl⟩ | ⟨v, -, hv⟩
  · exact ⟨rfl, .inr ⟨⟨code, hfail⟩, code, rfl⟩⟩
  · simp only [perform, ifOpen, hopen] at hv
    obtain ⟨rfl, rfl⟩ := Prod.mk.inj hv
    exact ⟨rfl, .inl rfl⟩

theorem Answers.fileSystem {f : OpenFile} (hopen : m.opened d.number = some f)
    {r : Except Int UInt64} (h : m.Answers P (.fileSystem d) r m') :
    m' = m ∧ ((∃ word, r = .ok word) ∨ CanFail P (.fileSystem d) ∧ ∃ code, r = .error code) := by
  rcases h.cases with ⟨code, hfail, rfl, rfl⟩ | ⟨v, -, hv⟩
  · exact ⟨rfl, .inr ⟨⟨code, hfail⟩, code, rfl⟩⟩
  · simp only [perform, ifOpen, hopen] at hv
    obtain ⟨rfl, rfl⟩ := Prod.mk.inj hv
    exact ⟨rfl, .inl ⟨_, rfl⟩⟩

/-! ## Calls on paths and descriptors -/

variable {p : Path}

/-- Opening for writing finds the file or makes it. -/
theorem Answers.openWrite {synchronous direct : Bool} {r : Except Int Descriptor}
    (h : m.Answers P (.open_ p (.write synchronous direct)) r m') :
    (∃ id t, m.tree.openOrMake m.workingDirectory p = .ok (id, t) ∧
        r = .ok ⟨m.nextNumber, p⟩ ∧
        m' = ({ m with tree := t }.openTarget p ⟨true, .file id⟩).2) ∨
      m' = m ∧ (∃ code, r = .error code) ∧
        ((∃ code, m.tree.openOrMake m.workingDirectory p = .error code) ∨
          CanFail P (.open_ p (.write synchronous direct))) := by
  rcases h.cases with ⟨code, hfail, rfl, rfl⟩ | ⟨v, -, hv⟩
  · exact .inr ⟨rfl, ⟨code, rfl⟩, .inr ⟨code, hfail⟩⟩
  · simp only [perform, openPath] at hv
    split at hv
    · next code hmake =>
      obtain ⟨rfl, rfl⟩ := Prod.mk.inj hv
      exact .inr ⟨rfl, ⟨code, rfl⟩, .inl ⟨code, hmake⟩⟩
    · next id t hmake =>
      obtain ⟨rfl, rfl⟩ := Prod.mk.inj hv
      exact .inl ⟨id, t, hmake, rfl, rfl⟩

/-- Opening for reading finds what is there. -/
theorem Answers.openRead {r : Except Int Descriptor} (h : m.Answers P (.open_ p .read) r m') :
    (∃ target, m.tree.openExisting m.workingDirectory p = .ok target ∧
        r = .ok ⟨m.nextNumber, p⟩ ∧ m' = (m.openTarget p ⟨false, target⟩).2) ∨
      m' = m ∧ (∃ code, r = .error code) ∧
        ((∃ code, m.tree.openExisting m.workingDirectory p = .error code) ∨
          CanFail P (.open_ p .read)) := by
  rcases h.cases with ⟨code, hfail, rfl, rfl⟩ | ⟨v, -, hv⟩
  · exact .inr ⟨rfl, ⟨code, rfl⟩, .inr ⟨code, hfail⟩⟩
  · simp only [perform, openPath] at hv
    split at hv
    · next code hnone =>
      obtain ⟨rfl, rfl⟩ := Prod.mk.inj hv
      exact .inr ⟨rfl, ⟨code, rfl⟩, .inl ⟨code, hnone⟩⟩
    · next target htarget =>
      obtain ⟨rfl, rfl⟩ := Prod.mk.inj hv
      exact .inl ⟨target, htarget, rfl, rfl⟩

/-- A descriptor carries the path that it was opened with. -/
theorem Answers.path_of_open {mode : OpenMode}
    (h : m.Answers P (.open_ p mode) (.ok d) m') : d.path = p := by
  cases mode with
  | read =>
    rcases h.openRead with ⟨_, -, hd, -⟩ | ⟨-, ⟨_, hd⟩, -⟩
    · obtain rfl := Except.ok.inj hd
      rfl
    · exact absurd hd (by simp)
  | write synchronous direct =>
    rcases h.openWrite with ⟨_, _, -, hd, -⟩ | ⟨-, ⟨_, hd⟩, -⟩
    · obtain rfl := Except.ok.inj hd
      rfl
    · exact absurd hd (by simp)

/-- Unlinking removes a name, or does nothing. -/
theorem Answers.unlink {r : Except Int Unit} (h : m.Answers P (.unlink p) r m') :
    (r = .ok () ∧ ∃ t, m.tree.unlink m.workingDirectory p = .ok t ∧ m' = { m with tree := t }) ∨
      m' = m ∧ ∃ code, r = .error code ∧
        (m.tree.unlink m.workingDirectory p = .error code ∨ CanFail P (.unlink p)) := by
  rcases h.cases with ⟨code, hfail, rfl, rfl⟩ | ⟨v, -, hv⟩
  · exact .inr ⟨rfl, code, rfl, .inr ⟨code, hfail⟩⟩
  · simp only [perform, Machine.unlink] at hv
    split at hv
    · next code hcode =>
      obtain ⟨rfl, rfl⟩ := Prod.mk.inj hv
      exact .inr ⟨rfl, code, rfl, .inl hcode⟩
    · next t ht =>
      obtain ⟨rfl, rfl⟩ := Prod.mk.inj hv
      exact .inl ⟨rfl, t, ht, rfl⟩

/-- Closing forgets what was open, also when it fails. -/
theorem Answers.close {r : Except Int Unit} (h : m.Answers P (.close d) r m') :
    (m' = m.forget d.number ∨ m' = m ∧ m.opened d.number = none) ∧
      (r = .ok () ∨
        (CanFail P (.close d) ∨ m.opened d.number = none) ∧ ∃ code, r = .error code) := by
  rcases h.cases with ⟨code, hfail, rfl, rfl⟩ | ⟨v, -, hv⟩
  · exact ⟨.inl rfl, .inr ⟨.inl ⟨code, hfail⟩, code, rfl⟩⟩
  · simp only [perform, Machine.close] at hv
    split at hv
    · next hnone =>
      obtain ⟨rfl, rfl⟩ := Prod.mk.inj hv
      exact ⟨.inr ⟨rfl, hnone⟩, .inr ⟨.inr hnone, _, rfl⟩⟩
    · obtain ⟨rfl, rfl⟩ := Prod.mk.inj hv
      exact ⟨.inl rfl, .inl rfl⟩

/-! ## Machines that differ in what was opened since -/

/-- All that `m` has open, and its tree, are in `m'` as well. -/
structure Keeps (m m' : Machine) : Prop where
  tree : m'.tree = m.tree
  workingDirectory : m'.workingDirectory = m.workingDirectory
  nextNumber : m.nextNumber ≤ m'.nextNumber
  opened : ∀ k < m.nextNumber, m'.opened k = m.opened k

theorem Keeps.refl (m : Machine) : m.Keeps m := ⟨rfl, rfl, Nat.le_refl _, fun _ _ => rfl⟩

theorem keeps_openTarget (m : Machine) (p : Path) (f : OpenFile) : m.Keeps (m.openTarget p f).2 :=
  ⟨rfl, rfl, Nat.le_succ _, fun k hk => by simp [openTarget, Nat.ne_of_lt hk]⟩

/-- What was opened since can be closed again. -/
theorem Keeps.forget (h : m.Keeps m') {k : Nat} (hk : m.nextNumber ≤ k) :
    m.Keeps (m'.forget k) := by
  refine ⟨h.tree, h.workingDirectory, h.nextNumber, fun j hj => ?_⟩
  have hne : j ≠ k := Nat.ne_of_lt (Nat.lt_of_lt_of_le hj hk)
  simpa [Machine.forget, hne] using h.opened j hj

end Machine

/-! ## Making a call -/

/-- On the machine `m`, a program over system calls can yield `a` and leave `m'`, as `P` allows. -/
abbrev CanEnd {α : Type} (P : SystemCall → Verdict → Prop) (p : SystemProgram α) (m : Machine)
    (a : α) (m' : Machine) (history : List (Happening System Event)) : Prop :=
  p.Ends (Machine.Answers P) m a m' history

namespace Posix

variable {P : SystemCall → Verdict → Prop} {m m' : Machine}
  {history : List (Happening System Event)}

/-- A run under a policy ends as the policy allows. -/
theorem canEnd_run {φ α : Type} {decide : Policy φ} (hP : decide.Within P) (p : SystemProgram α)
    (w : Machine × φ) :
    CanEnd P p w.1 (p.run decide.handler w).value (p.run decide.handler w).world.1
      (p.run decide.handler w).history :=
  ends_run Prod.fst decide.handler (fun c w => ⟨(decide c w.2).1, hP c w.2, rfl⟩) p w

/-- A call made with patience is answered like one that is made once. -/
theorem answers_of_persist {c : SystemCall} (hc : ∀ d, c ≠ .close d) {patience : Nat}
    {r : c.Reply} (h : CanEnd P (persist c patience) m r m' history) :
    m.Answers P c r m' ∧ ∀ q ∈ requestsOf history, q = c := by
  induction patience generalizing m history with
  | zero =>
    obtain ⟨_, _, _, hr, ⟨rfl, rfl, rfl⟩, rfl⟩ := h
    exact ⟨hr, by simp⟩
  | succ patience ih =>
    obtain ⟨first, m₁, rest, hfirst, hrest, rfl⟩ := h
    cases first with
    | ok a =>
      obtain ⟨rfl, rfl, rfl⟩ := hrest
      exact ⟨hfirst, by simp⟩
    | error code =>
      by_cases hcode : code = Errno.interrupted
      · -- the interrupted call did nothing, so the next one is made of the same machine
        obtain rfl := hfirst.of_error hc
        simp only [hcode, if_true] at hrest
        obtain ⟨hlast, hcalls⟩ := ih hrest
        refine ⟨hlast, fun q hq => ?_⟩
        rcases List.mem_cons.mp hq with rfl | hq
        · rfl
        · exact hcalls q hq
      · simp only [hcode, if_false] at hrest
        obtain ⟨rfl, rfl, rfl⟩ := hrest
        exact ⟨hfirst, by simp⟩

/-- A call made once, with its reply read as that of a system. -/
theorem canEnd_once {c : SystemCall} {a : Except SystemError c.Result} :
    CanEnd P (once c) m a m' history ↔
      ∃ r, m.Answers P c r m' ∧ a = ofSystem r ∧ history = [.answered c r] := by
  constructor
  · rintro ⟨r, _, _, hr, ⟨rfl, rfl, rfl⟩, rfl⟩
    exact ⟨r, hr, rfl, rfl⟩
  · rintro ⟨r, hr, rfl, rfl⟩
    exact ⟨r, m', [], hr, ⟨rfl, rfl, rfl⟩, rfl⟩

end Posix

end WriteAhead
