/-
# Two openings at once

Two openings of one journal decide on what they saw of its length, and set it later.  Nothing keeps
them apart, so that the one that sets its size last may take back what the other one grew the file
to.  What was in the file before either of them is safe.

Main statements:

* `Posix.goesOn_openForWrite` : the calls of an opening, and the stages that they lead through;
* `Posix.race_openForWrite` : what both openings come to, however their calls are interleaved;
* `Posix.race_openForWrite_shrinks` : the file can end up shorter than one of them was told.
-/
import WriteAhead.Proofs.Growth
import WriteAhead.Proofs.Turns

namespace WriteAhead

open Program

/-! ## The stages of an opening -/

/-- How far an opening for writing has come. -/
inductive Stage where
  | unopened
  /-- The file is open, and nothing is known about it yet. -/
  | opened (d : Descriptor)
  /-- The file was seen to be too short. -/
  | growing (d : Descriptor)
  /-- The journal can be given out, with the size that its opener is told. -/
  | ready (d : Descriptor) (told : Nat)
  | failed

namespace Stage

/-- The calls of an opening at each stage. -/
inductive Calls (p : Path) (size : UInt64) : Stage → SystemCall → Prop where
  | open_ (synchronous direct : Bool) :
    Calls p size .unopened (.open_ p (.write synchronous direct))
  | fileSize (d : Descriptor) : Calls p size (.opened d) (.length d)
  | length (d : Descriptor) : Calls p size (.growing d) (.length d)
  | allocate (d : Descriptor) : Calls p size (.growing d) (.allocate d size)
  | setLength (d : Descriptor) : Calls p size (.growing d) (.setLength d size)

/-- The stage after a call that succeeded. -/
def after (size : UInt64) : Stage → (c : SystemCall) → c.Result → Stage
  | .unopened, .open_ _ _, d => .opened d
  | .opened d, .length _, n => if n < size.toNat then .growing d else .ready d n
  | .growing d, .setLength _ _, _ => .ready d size.toNat
  | .growing d, _, _ => .growing d
  | _, _, _ => .failed

/-- The stage after a call. -/
def next (size : UInt64) (x : Stage) (c : SystemCall) : c.Reply → Stage
  | .ok a => x.after size c a
  | .error _ => .failed

/-- The protocol of an opening.  Once a call has failed, anything may be called. -/
def Opens (p : Path) (size : UInt64) : Answering System Stage :=
  fun x c r y => (x = .failed ∨ Calls p size x c) ∧ y = x.next size c r

theorem opens_failed (p : Path) (size : UInt64) (c : SystemCall) (r : c.Reply) :
    Opens p size .failed c r .failed := by
  refine ⟨.inl rfl, ?_⟩
  cases r with
  | error code => rfl
  | ok a => rfl

/-- Unless a call fails, a program makes the calls of an opening from the stage `x` on, and ends as
`post` says. -/
def GoesOn {α : Type} (x : Stage) (p : Path) (size : UInt64) (program : SystemProgram α)
    (post : α → Stage → Prop) : Prop :=
  program.Follows (Opens p size) x fun a y => y = .failed ∨ post a y

variable {α β : Type} {p : Path} {size : UInt64} {x : Stage} {program : SystemProgram α}
  {mid : α → Stage → Prop} {post : β → Stage → Prop}

theorem goesOn_failed (p : Path) (size : UInt64) (program : SystemProgram α)
    (mid : α → Stage → Prop) : GoesOn .failed p size program mid :=
  (follows_of_forall (fun c r => opens_failed p size c r) program).mono fun _ _ hy => .inl hy

theorem GoesOn.bind {f : α → SystemProgram β} (hp : GoesOn x p size program mid)
    (hf : ∀ a y, mid a y → GoesOn y p size (f a) post) : GoesOn x p size (program >>= f) post := by
  refine Follows.bind hp fun a y hy => ?_
  rcases hy with rfl | hy
  · exact goesOn_failed p size (f a) post
  · exact hf a y hy

theorem goesOn_make {c : SystemCall} (hc : Calls p size x c) :
    GoesOn x p size c.make fun r y => ∃ a, r = .ok a ∧ y = x.after size c a := by
  intro r
  refine ⟨x.next size c r, ⟨.inr hc, rfl⟩, ?_⟩
  cases r with
  | error code => exact .inl rfl
  | ok a => exact .inr ⟨a, rfl, rfl⟩

end Stage

namespace Posix

variable {patience : Nat} {p : Path} {size : UInt64} {x : Stage} {d : Descriptor}

/-! ## The calls of an opening -/

theorem goesOn_persist {c : SystemCall} (hc : Stage.Calls p size x c) :
    x.GoesOn p size (persist c patience) fun r y => ∃ a, r = .ok a ∧ y = x.after size c a := by
  cases patience with
  | zero => exact Stage.goesOn_make hc
  | succ patience =>
    intro r
    refine ⟨x.next size c r, ⟨.inr hc, rfl⟩, ?_⟩
    cases r with
    | error code => exact Stage.goesOn_failed p size _ _
    | ok a => exact .inr ⟨a, rfl, rfl⟩

theorem goesOn_once {c : SystemCall} (hc : Stage.Calls p size x c) :
    x.GoesOn p size (once c) fun r y => ∃ a, r = .ok a ∧ y = x.after size c a := by
  refine (Stage.goesOn_make hc).bind ?_
  rintro _ _ ⟨a, rfl, rfl⟩
  exact .inr ⟨a, rfl, rfl⟩

theorem goesOn_openPath (hzero : p.hasZeroByte = false) (synchronous direct : Bool) :
    Stage.unopened.GoesOn p size (openPath patience p (.write synchronous direct)) fun r y =>
      ∃ d, r = .ok d ∧ y = .opened d := by
  unfold openPath
  rw [hzero]
  refine (goesOn_persist (.open_ synchronous direct)).bind ?_
  rintro _ _ ⟨d, rfl, rfl⟩
  exact .inr ⟨d, rfl, rfl⟩

theorem goesOn_pin (hsize : size.toNat < Machine.offsetLimit) :
    (Stage.growing d).GoesOn p size ((resizer patience d).pin size) fun r y =>
      r = .ok () ∧ y = .ready d size.toNat := by
  have hset : (Stage.growing d).GoesOn p size (setLength patience d size) fun r y =>
      r = .ok () ∧ y = .ready d size.toNat := by
    have hfits : ¬ 0x8000000000000000 ≤ size.toNat := Nat.not_le.mpr hsize
    unfold setLength
    rw [if_neg hfits]
    refine (goesOn_persist (.setLength d)).bind ?_
    rintro _ _ ⟨a, rfl, rfl⟩
    exact .inr ⟨rfl, rfl⟩
  refine Stage.GoesOn.bind hset ?_
  rintro _ _ ⟨rfl, rfl⟩
  exact .inr ⟨rfl, rfl⟩

/-- A file that was seen to be too short gets exactly the size, also if it was extended since. -/
theorem goesOn_resize (hsize : size.toNat < Machine.offsetLimit) :
    (Stage.growing d).GoesOn p size (serve patience (.resize d size)) fun r y =>
      r = .ok () ∧ y = .ready d size.toNat := by
  refine Stage.GoesOn.bind (goesOn_once (.length d)) ?_
  rintro _ _ ⟨n, rfl, rfl⟩
  show Stage.GoesOn _ p size (if n < size.toNat then _ else _) _
  split
  · refine Stage.GoesOn.bind (goesOn_once (.allocate d)) ?_
    rintro _ _ ⟨a, rfl, rfl⟩
    exact goesOn_pin hsize
  · exact goesOn_pin hsize

theorem goesOn_grow (hsize : size.toNat < Machine.offsetLimit) :
    (Stage.opened d).GoesOn p size (native patience (Journal.grow d size)) fun r y =>
      ∃ n, r = .ok n ∧ y = .ready d n := by
  unfold Journal.grow
  rw [native_bind, native_take]
  have hfileSize : (Stage.opened d).GoesOn p size (serve patience (.fileSize d)) fun r y =>
      ∃ n, r = .ok n ∧ y = (Stage.opened d).after size (.length d) n := by
    refine Stage.GoesOn.bind (goesOn_once (.fileSize d)) ?_
    rintro _ _ ⟨n, rfl, rfl⟩
    exact .inr ⟨n, rfl, rfl⟩
  refine hfileSize.bind ?_
  rintro _ _ ⟨n, rfl, rfl⟩
  simp only [Stage.after]
  by_cases hn : n < size.toNat
  · rw [if_pos hn, if_pos hn, native_bind, native_take]
    refine (goesOn_resize hsize).bind ?_
    rintro _ _ ⟨rfl, rfl⟩
    exact .inr ⟨_, rfl, rfl⟩
  · rw [if_neg hn, if_neg hn]
    exact .inr ⟨n, rfl, rfl⟩

theorem goesOn_prepare (hsize : size.toNat < Machine.offsetLimit) (flags : OpenFlags) :
    (Stage.opened d).GoesOn p size (native patience (Journal.prepare flags d size)) fun r y =>
      ∃ n, r = .ok n ∧ y = .ready d n := by
  have hfinish : native patience (Journal.finishUnbuffered flags d) = .done (.ok ()) := by
    unfold Journal.finishUnbuffered
    cases flags.unbuffered <;> rfl
  unfold Journal.prepare
  rw [native_bind, hfinish]
  exact goesOn_grow hsize

/-- The calls of an opening: it opens the path and asks for the length; if the file is too short, it
asks again, reserves the space if the file is too short still, and sets the length.  Unless one of
them fails, the journal is given out with the size that was seen or set. -/
theorem goesOn_openForWrite (patience : Nat) (hzero : p.hasZeroByte = false) (hpos : size ≠ 0)
    (hsize : size.toNat < Machine.offsetLimit) (mode : JournalMode)
    (support : DurabilitySupport) :
    Stage.unopened.GoesOn p size
      (native patience (Journal.openForWrite Features.posix p mode size support)) fun r y =>
        ∃ d n, r = .ok (Journal.writer p mode support d, n) ∧ y = .ready d n := by
  unfold Journal.openForWrite
  rw [if_neg hpos, native_bind, native_take]
  refine Stage.GoesOn.bind (goesOn_openPath hzero _ _) ?_
  rintro _ _ ⟨d, rfl, rfl⟩
  simp only
  rw [native_bind]
  refine (goesOn_prepare hsize _).bind ?_
  rintro _ _ ⟨n, rfl, rfl⟩
  exact .inr ⟨d, n, rfl, rfl⟩

end Posix

/-! ## Two openings on one machine -/

/-- What surroundings decide in which nothing fails. -/
def Unfailing : SystemCall → Verdict → Prop := fun _ v => ∀ code, v ≠ .fail code

theorem not_canFail_unfailing (c : SystemCall) : ¬ CanFail Unfailing c :=
  fun ⟨code, h⟩ => h code rfl

/-- The file is open for writing as `d`. -/
def Machine.HasOpen (m : Machine) (id : FileId) (d : Descriptor) : Prop :=
  d.number < m.nextNumber ∧ m.opened d.number = some ⟨true, .file id⟩

/-- The journal file that openings race for, and what was in it before them. -/
structure Target where
  path : Path
  file : FileId
  old : Content

/-- What an opening of the size `size` has achieved on a machine, by its stage. -/
def Stage.Holds (o : Target) (size : UInt64) (m : Machine) : Stage → Prop
  | .unopened => True
  | .opened d => m.HasOpen o.file d
  | .growing d => m.HasOpen o.file d ∧ o.old.length < size.toNat
  | .ready _ told => size.toNat ≤ told
  | .failed => False

theorem Machine.HasOpen.openTarget {m : Machine} {id : FileId} {d : Descriptor}
    (h : m.HasOpen id d) (p : Path) (f : OpenFile) : (m.openTarget p f).2.HasOpen id d := by
  obtain ⟨hnumber, hopen⟩ := h
  refine ⟨Nat.lt_succ_of_lt hnumber, ?_⟩
  simpa [Machine.openTarget, Nat.ne_of_lt hnumber] using hopen

theorem Machine.hasOpen_openTarget (m : Machine) (p : Path) (id : FileId) :
    (m.openTarget p ⟨true, .file id⟩).2.HasOpen id ⟨m.nextNumber, p⟩ :=
  ⟨Nat.lt_succ_self _, by simp [Machine.openTarget]⟩

theorem Stage.Holds.openTarget {o : Target} {size : UInt64} {m : Machine} {x : Stage}
    (h : x.Holds o size m) (p : Path) (f : OpenFile) : x.Holds o size (m.openTarget p f).2 := by
  cases x with
  | opened d => exact Machine.HasOpen.openTarget h p f
  | growing d => exact ⟨h.1.openTarget p f, h.2⟩
  | unopened | ready | failed => exact h

theorem Stage.Holds.setContent {o : Target} {size : UInt64} {m : Machine} {x : Stage}
    (h : x.Holds o size m) (id : FileId) (c : Content) : x.Holds o size (m.setContent id c) := by
  cases x <;> exact h

/-- The size that an opening is told is one that the file has, unless the other opening sets the
file to its own size, or is about to. -/
def Stage.ToldRightly (o : Target) (length : Nat) (x : Stage) (other : UInt64) (y : Stage) : Prop :=
  ∀ d told, x = .ready d told →
    told ≤ length ∨ length = other.toNat ∧ o.old.length < other.toNat ∨ ∃ d', y = .growing d'

/-- While the other opening is not about to set the file to its size, it can go on to any stage. -/
theorem Stage.ToldRightly.of_forall_ne {o : Target} {length : Nat} {x y : Stage} {other : UInt64}
    (h : x.ToldRightly o length other y) (hy : ∀ d, y ≠ .growing d) (y' : Stage) :
    x.ToldRightly o length other y' := by
  intro d told hready
  rcases h d told hready with hle | hset | ⟨d', hgrowing⟩
  · exact .inl hle
  · exact .inr (.inl hset)
  · exact absurd hgrowing (hy d')

/-- What was in front stays there when a content is cut behind it. -/
theorem Content.prefix_toBytes_setLength {old c : Content} (h : old.toBytes <+: c.toBytes) {n : Nat}
    (hn : old.length ≤ n) : old.toBytes <+: (c.setLength n).toBytes := by
  rw [toBytes_setLength]
  have htake : old.toBytes <+: c.toBytes.take n :=
    List.prefix_take_iff.mpr ⟨h, by simpa using hn⟩
  exact htake.trans (List.prefix_append _ _)

/-- Two openings of sizes `a` and `b` are at the stages `x` and `y` on a machine. -/
structure Racing (o : Target) (a b : UInt64) (m : Machine) (x y : Stage) : Prop where
  leads : m.tree.openExisting m.workingDirectory o.path = .ok (.file o.file)
  left : x.Holds o a m
  right : y.Holds o b m
  kept : o.old.toBytes <+: (m.tree.content o.file).toBytes
  leftTold : x.ToldRightly o (m.tree.content o.file).length b y
  rightTold : y.ToldRightly o (m.tree.content o.file).length a x

namespace Racing

variable {o : Target} {a b : UInt64} {m m' : Machine} {x x' y : Stage} {c : SystemCall}
  {r : c.Reply}

theorem symm (h : Racing o a b m x y) : Racing o b a m y x :=
  ⟨h.leads, h.right, h.left, h.kept, h.rightTold, h.leftTold⟩

theorem setContent (h : Racing o a b m x y) {c : Content} (hkept : o.old.toBytes <+: c.toBytes)
    (hleft : x'.Holds o a m) (hleftTold : x'.ToldRightly o c.length b y)
    (hrightTold : y.ToldRightly o c.length a x') :
    Racing o a b (m.setContent o.file c) x' y where
  leads := (FileTree.openExisting_setContent _ _ _ _ _).trans h.leads
  left := hleft.setContent o.file c
  right := h.right.setContent o.file c
  kept := by simpa using hkept
  leftTold := by simpa using hleftTold
  rightTold := by simpa using hrightTold

/-- A call of one opening keeps what both have achieved. -/
theorem step (ha : a ≠ 0) (hsize : a.toNat < Machine.offsetLimit) (h : Racing o a b m x y)
    (hanswer : m.Answers Unfailing c r m') (hopens : Stage.Opens o.path a x c r x') :
    Racing o a b m' x' y := by
  obtain ⟨rfl | hcall, rfl⟩ := hopens
  · exact absurd h.left id
  have hlength : o.old.length ≤ (m.tree.content o.file).length := by
    simpa using h.kept.length_le
  cases hcall with
  | open_ synchronous direct =>
    have hmake := FileTree.openOrMake_of_openExisting h.leads
    rcases hanswer.openWrite with ⟨id, t, hmake', rfl, rfl⟩ | ⟨-, -, ⟨code, hcode⟩ | hfail⟩
    · obtain ⟨rfl, rfl⟩ := Prod.mk.inj (Except.ok.inj (hmake.symm.trans hmake'))
      exact ⟨h.leads, m.hasOpen_openTarget o.path o.file, h.right.openTarget _ _, h.kept,
        fun d told hready => absurd hready (by simp [Stage.next, Stage.after]),
        h.rightTold.of_forall_ne (by simp) _⟩
    · exact absurd (hmake.symm.trans hcode) (by simp)
    · exact absurd hfail (not_canFail_unfailing _)
  | fileSize d =>
    obtain ⟨rfl, rfl | ⟨hfail, -⟩⟩ := hanswer.length h.left.2
    · have hright := h.rightTold.of_forall_ne (by simp)
      simp only [Stage.next, Stage.after]
      split
      · next hshort =>
        exact ⟨h.leads, ⟨h.left, Nat.lt_of_le_of_lt hlength hshort⟩, h.right, h.kept,
          fun d told hready => absurd hready (by simp), hright _⟩
      · next hlong =>
        refine ⟨h.leads, Nat.le_of_not_lt hlong, h.right, h.kept, fun d' told hready => ?_,
          hright _⟩
        obtain ⟨-, rfl⟩ := Stage.ready.inj hready
        exact .inl (Nat.le_refl _)
    · exact absurd hfail (not_canFail_unfailing _)
  | length d =>
    obtain ⟨rfl, rfl | ⟨hfail, -⟩⟩ := hanswer.length h.left.1.2
    · exact h
    · exact absurd hfail (not_canFail_unfailing _)
  | allocate d =>
    rcases hanswer.allocate h.left.1.2 with ⟨rfl, k, -, rfl⟩ | ⟨-, code, -, hzero | hlarge | hfail⟩
    · exact h.setContent (h.kept.trans (Content.prefix_toBytes_extendTo _ k)) h.left
        (fun d' told hready => absurd hready (by simp [Stage.next, Stage.after]))
        (fun d' told hready => .inr (.inr ⟨d, rfl⟩))
    · exact absurd hzero ha
    · exact absurd hsize (Nat.not_lt.mpr hlarge)
    · exact absurd rfl (hfail code)
  | setLength d =>
    rcases hanswer.setLength h.left.1.2 with ⟨rfl, rfl⟩ | ⟨-, hlarge | hfail, -⟩
    · refine h.setContent (Content.prefix_toBytes_setLength h.kept (Nat.le_of_lt h.left.2))
        (Nat.le_refl _) (fun d' told hready => ?_)
        (fun d' told hready => .inr (.inl ⟨rfl, h.left.2⟩))
      obtain ⟨-, rfl⟩ := Stage.ready.inj hready
      exact .inl (Nat.le_refl _)
    · exact absurd hsize (Nat.not_lt.mpr hlarge)
    · exact absurd hfail (not_canFail_unfailing _)

end Racing

namespace Posix

variable {φ : Type} {patience : Nat} {decide : Policy φ} {m m' : Machine} {p : Path} {id : FileId}
  {a b size : UInt64}

/-- An opening that is not disturbed gives the file the greater of its length and the size. -/
theorem ends_openForWrite_unfailing (hzero : p.hasZeroByte = false)
    (hfile : m.tree.openExisting m.workingDirectory p = .ok (.file id)) (hpos : size ≠ 0)
    (hsize : size.toNat < Machine.offsetLimit) {mode : JournalMode} {support : DurabilitySupport}
    {r : Outcome (Handle × Nat)} {history : List (Happening System Event)}
    (h : CanEnd Unfailing
      (native patience (Journal.openForWrite Features.posix p mode size support)) m r m' history) :
    m' = (m.openTarget p ⟨true, .file id⟩).2.setContent id
      ((m.tree.content id).setLength (max (m.tree.content id).length size.toNat)) := by
  have hmake := FileTree.openOrMake_of_openExisting hfile
  rcases ends_openForWrite_journal hpos h with
    ⟨id', t, hmake', -, hm, -⟩ | ⟨-, hzero' | ⟨code, hcode⟩ | ⟨mode, hfail⟩ | ⟨d, hfail⟩, -⟩
  · obtain ⟨rfl, rfl⟩ := Prod.mk.inj (Except.ok.inj (hmake.symm.trans hmake'))
    exact hm
  · exact absurd (hzero.symm.trans hzero') (by simp)
  · exact absurd (hmake.symm.trans hcode) (by simp)
  · exact absurd hfail (not_canFail_unfailing _)
  · rcases hfail with hlarge | hlength | hset | ⟨code, hcode, -⟩
    · exact absurd hsize (Nat.not_lt.mpr hlarge)
    · exact absurd hlength (not_canFail_unfailing _)
    · exact absurd hset (not_canFail_unfailing _)
    · exact absurd rfl (hcode code)

/-- Openings one after the other give the file all that either of them asked for. -/
theorem length_openForWrite_twice (hpolicy : decide.Within Unfailing)
    (hzero : p.hasZeroByte = false)
    (hfile : m.tree.openExisting m.workingDirectory p = .ok (.file id)) (s : φ) (ha : a ≠ 0)
    (hb : b ≠ 0) (hasize : a.toNat < Machine.offsetLimit) (hbsize : b.toNat < Machine.offsetLimit)
    (mode mode' : JournalMode) (support support' : DurabilitySupport) :
    let first := (native patience (Journal.openForWrite Features.posix p mode a support)).run
      decide.handler (m, s)
    let second := (native patience (Journal.openForWrite Features.posix p mode' b support')).run
      decide.handler first.world
    (second.world.1.tree.content id).length =
      max (m.tree.content id).length (max a.toNat b.toNat) := by
  intro first second
  have hfirst : first.world.1 = (m.openTarget p ⟨true, .file id⟩).2.setContent id
      ((m.tree.content id).setLength (max (m.tree.content id).length a.toNat)) :=
    ends_openForWrite_unfailing hzero hfile ha hasize (canEnd_run hpolicy _ (m, s))
  have hfile' : first.world.1.tree.openExisting first.world.1.workingDirectory p =
      .ok (.file id) := by
    rw [hfirst, Machine.tree_setContent, FileTree.openExisting_setContent]
    exact hfile
  have hsecond := ends_openForWrite_unfailing hzero hfile' hb hbsize (canEnd_run hpolicy
    (native patience (Journal.openForWrite Features.posix p mode' b support')) first.world)
  show (second.world.1.tree.content id).length = _
  rw [hsecond, Machine.tree_setContent, Machine.content_setContent_self, Content.length_setLength,
    hfirst, Machine.tree_setContent, Machine.content_setContent_self, Content.length_setLength]
  exact Nat.max_assoc _ _ _

/-- Openings that do not overlap do so too, whichever of them comes first. -/
theorem length_race_of_keepsApart (hpolicy : decide.Within Unfailing)
    (hzero : p.hasZeroByte = false)
    (hfile : m.tree.openExisting m.workingDirectory p = .ok (.file id)) (s : φ) (ha : a ≠ 0)
    (hb : b ≠ 0) (hasize : a.toNat < Machine.offsetLimit) (hbsize : b.toNat < Machine.offsetLimit)
    (mode mode' : JournalMode) (support support' : DurabilitySupport) {schedule : List Bool}
    (hschedule : KeepsApart decide.handler schedule
      (native patience (Journal.openForWrite Features.posix p mode a support))
      (native patience (Journal.openForWrite Features.posix p mode' b support')) (m, s)) :
    ((race decide.handler schedule
      (native patience (Journal.openForWrite Features.posix p mode a support))
      (native patience (Journal.openForWrite Features.posix p mode' b support'))
      (m, s)).world.1.tree.content id).length =
        max (m.tree.content id).length (max a.toNat b.toNat) := by
  rcases hschedule with hleft | hright
  · rw [race_of_goesFirst_left hleft]
    exact length_openForWrite_twice hpolicy hzero hfile s ha hb hasize hbsize mode mode' support
      support'
  · rw [race_of_goesFirst_right hright, Nat.max_comm a.toNat b.toNat]
    exact length_openForWrite_twice hpolicy hzero hfile s hb ha hbsize hasize mode' mode support'
      support

/-- **Two openings at once both succeed, and keep what was in the file.**  Each is told at least the
size that it asked for.  The file can end up shorter than what one of them was told only by having
just the size that the other one set it to.  So it has both sizes in the end if they are the same,
if the file had one of them from the beginning, or if the schedule keeps the openings apart. -/
theorem race_openForWrite (patience : Nat) (hpolicy : decide.Within Unfailing)
    (hzero : p.hasZeroByte = false)
    (hfile : m.tree.openExisting m.workingDirectory p = .ok (.file id)) (s : φ) (ha : a ≠ 0)
    (hb : b ≠ 0) (hasize : a.toNat < Machine.offsetLimit) (hbsize : b.toNat < Machine.offsetLimit)
    (mode mode' : JournalMode) (support support' : DurabilitySupport) (schedule : List Bool) :
    let old := m.tree.content id
    let left := native patience (Journal.openForWrite Features.posix p mode a support)
    let right := native patience (Journal.openForWrite Features.posix p mode' b support')
    let r := race decide.handler schedule left right (m, s)
    let new := r.world.1.tree.content id
    (∃ d d' told told',
      r.left = .ok (Journal.writer p mode support d, told) ∧
      r.right = .ok (Journal.writer p mode' support' d', told') ∧
      a.toNat ≤ told ∧ (told ≤ new.length ∨ new.length = b.toNat ∧ old.length < b.toNat) ∧
      b.toNat ≤ told' ∧ (told' ≤ new.length ∨ new.length = a.toNat ∧ old.length < a.toNat)) ∧
    old.toBytes <+: new.toBytes ∧
    (a = b ∨ a.toNat ≤ old.length ∨ b.toNat ≤ old.length →
      max old.length (max a.toNat b.toNat) ≤ new.length) ∧
    (KeepsApart decide.handler schedule left right (m, s) →
      new.length = max old.length (max a.toNat b.toNat)) := by
  intro old left right r new
  let o : Target := ⟨p, id, old⟩
  have hstart : Racing o a b m .unopened .unopened :=
    ⟨hfile, trivial, trivial, List.prefix_rfl, fun d told hready => absurd hready (by simp),
      fun d told hready => absurd hready (by simp)⟩
  have hanswer (c : SystemCall) (w : Machine × φ) :
      w.1.Answers Unfailing c (decide.handler c w).1 (decide.handler c w).2.1 :=
    ⟨(decide c w.2).1, hpolicy c w.2, rfl⟩
  obtain ⟨x, y, hend, hleft, hright⟩ := race_invariant
    (J := fun w x y => Racing o a b w.1 x y)
    (fun w x y c x' h hx => h.step ha hasize (hanswer c w) hx)
    (fun w x y c y' h hy => (h.symm.step hb hbsize (hanswer c w) hy).symm)
    schedule (goesOn_openForWrite patience hzero ha hasize mode support)
    (goesOn_openForWrite patience hzero hb hbsize mode' support')
    (w := (m, s)) hstart
  obtain rfl | ⟨d, told, hvalue, rfl⟩ := hleft
  · exact False.elim hend.left
  obtain rfl | ⟨d', told', hvalue', rfl⟩ := hright
  · exact False.elim hend.right
  have htold : told ≤ new.length ∨ new.length = b.toNat ∧ old.length < b.toNat := by
    rcases hend.leftTold d told rfl with hle | hset | ⟨_, hgrowing⟩
    · exact .inl hle
    · exact .inr hset
    · exact absurd hgrowing (by simp)
  have htold' : told' ≤ new.length ∨ new.length = a.toNat ∧ old.length < a.toNat := by
    rcases hend.rightTold d' told' rfl with hle | hset | ⟨_, hgrowing⟩
    · exact .inl hle
    · exact .inr hset
    · exact absurd hgrowing (by simp)
  have hleast : a.toNat ≤ told := hend.left
  have hleast' : b.toNat ≤ told' := hend.right
  have hkept : old.toBytes <+: new.toBytes := hend.kept
  have hlength : old.length ≤ new.length := by simpa using hkept.length_le
  refine ⟨⟨d, d', told, told', hvalue, hvalue', hleast, htold, hleast', htold'⟩, hkept, ?_, ?_⟩
  · rintro (rfl | hcase)
    · omega
    · omega
  · intro hschedule
    exact length_race_of_keepsApart hpolicy hzero hfile s ha hb hasize hbsize mode mode' support
      support' hschedule

/-- A machine with a journal file of some length. -/
def journalMachine (length : Nat) : Machine :=
  .ofTree (FileTree.empty.makeFile [[106]] (Content.empty.setLength length)).1 []

/-- The race of two openings of this journal, where nothing fails. -/
def journalRace (length : Nat) (a b : UInt64) (schedule : List Bool) :
    Raced (Machine × Unit) (Outcome (Handle × Nat)) (Outcome (Handle × Nat)) :=
  race Policy.unhindered.handler schedule
    (native 0 (Journal.openForWrite Features.posix ⟨[106]⟩ .danger a .supported))
    (native 0 (Journal.openForWrite Features.posix ⟨[106]⟩ .durable b .supported))
    (journalMachine length, ())

/-- A file that has the smaller size already has both in the end, also if the openings overlap.  It
has exactly the greater one if the right opening makes its five calls first. -/
theorem race_openForWrite_one_byte :
    let m := journalMachine 1
    (Policy.unhindered.Within Unfailing ∧
        m.tree.openExisting m.workingDirectory ⟨[106]⟩ = .ok (.file 0)) ∧
      max (m.tree.content 0).length (max (1 : UInt64).toNat (2 : UInt64).toNat) ≤
        ((journalRace 1 1 2 [true, false, true, false, false]).world.1.tree.content 0).length ∧
      ((journalRace 1 1 2 (List.replicate 5 false)).world.1.tree.content 0).length =
        max (m.tree.content 0).length (max (1 : UInt64).toNat (2 : UInt64).toNat) := by
  have hpolicy : Policy.unhindered.Within Unfailing := fun _ _ _ h => Verdict.noConfusion h
  have hfile : (journalMachine 1).tree.openExisting (journalMachine 1).workingDirectory ⟨[106]⟩ =
      .ok (.file 0) := rfl
  have hone : (1 : UInt64).toNat ≤ ((journalMachine 1).tree.content 0).length := Nat.le_refl 1
  have hfirst : GoesFirst Policy.unhindered.handler false (List.replicate 5 false)
      (native 0 (Journal.openForWrite Features.posix ⟨[106]⟩ .durable 2 .supported))
      (journalMachine 1, ()) := .inr (by with_unfolding_all rfl)
  obtain ⟨-, -, hlong, -⟩ := race_openForWrite (a := 1) (b := 2) 0 hpolicy rfl hfile
    () (by decide) (by decide) (by decide) (by decide) .danger .durable .supported .supported
    [true, false, true, false, false]
  obtain ⟨-, -, -, hapart⟩ := race_openForWrite (a := 1) (b := 2) 0 hpolicy rfl hfile
    () (by decide) (by decide) (by decide) (by decide) .danger .durable .supported .supported
    (List.replicate 5 false)
  refine ⟨⟨hpolicy, hfile⟩, ?_, ?_⟩
  · unfold journalRace
    exact hlong (.inr (.inl hone))
  · unfold journalRace
    exact hapart (.inr hfirst)

/-- One opening sees an empty file, and sets it to one byte only after the other one was given the
file with two bytes; so the other one was told more than the file has.  And a size that is no length
of a file is not given out at all. -/
theorem race_openForWrite_shrinks :
    let r := journalRace 0 1 2 [true, true, true, true, false, false, false, false, false]
    let r' := journalRace 1 0x8000000000000000 1 []
    (r.left.map Prod.snd = .ok 1 ∧ r.right.map Prod.snd = .ok 2 ∧
        (r.world.1.tree.content 0).length = 1 ∧
        ¬ max 0 (max 1 2) ≤ (r.world.1.tree.content 0).length) ∧
      r'.left.map Prod.snd =
        .error (.error (.resize 0x8000000000000000 (.code Errno.invalidArgument))) := by
  have hlength : ((journalRace 0 1 2
      [true, true, true, true, false, false, false, false, false]).world.1.tree.content 0).length =
      1 := by
    with_unfolding_all rfl
  refine ⟨⟨?_, ?_, hlength, ?_⟩, ?_⟩
  · with_unfolding_all rfl
  · with_unfolding_all rfl
  · rw [hlength]
    decide
  · with_unfolding_all rfl

end Posix

end WriteAhead
