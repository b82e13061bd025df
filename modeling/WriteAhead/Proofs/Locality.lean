/-
# What is done with a journal depends on its view

Two machines on which a journal sees the same are the same for all that is done with it: every
operation yields the same on both, and changes them in the same way.  The numbers of descriptors may
differ between the machines, so the surroundings are taken not to look at them.

Main statements:

* `Determined.bind` : what is determined for the parts of a program is determined for the whole;
* `determined_syncDirectoryFor` : the sync of a directory, whatever number the directory is given;
* `determined_native_of_uses`, `determined_release` : what is done with a journal is determined by
  its view.
-/
import WriteAhead.Proofs.Confinement
import WriteAhead.Proofs.Release
import WriteAhead.Proofs.Steps
import WriteAhead.Proofs.Views

namespace WriteAhead

open Program

/-! ## Surroundings that do not look at numbers -/

/-- The call, with nothing told about the number of its descriptor. -/
def SystemCall.unnumbered : SystemCall → SystemCall
  | .open_ p mode => .open_ p mode
  | .close d => .close { d with number := 0 }
  | .sync d => .sync { d with number := 0 }
  | .setLength d n => .setLength { d with number := 0 } n
  | .allocate d n => .allocate { d with number := 0 } n
  | .length d => .length { d with number := 0 }
  | .fileSystem d => .fileSystem { d with number := 0 }
  | .writeAt d bytes offset => .writeAt { d with number := 0 } bytes offset
  | .readAt d count offset => .readAt { d with number := 0 } count offset
  | .unlink p => .unlink p
  | .inspect p => .inspect p

/-- The policy that decides about each call without a look at the number of its descriptor. -/
def Policy.blind {φ : Type} (decide : Policy φ) : Policy φ := fun c s => decide c.unnumbered s

theorem Policy.handler_blind {φ : Type} {decide : Policy φ} {c : SystemCall} {m m' : Machine}
    {s : φ} {r : c.Reply} (h : m.answer (decide c.unnumbered s).1 c = (r, m')) :
    decide.blind.handler c (m, s) = (r, (m', (decide c.unnumbered s).2)) := by
  show ((m.answer (decide c.unnumbered s).1 c).1, ((m.answer (decide c.unnumbered s).1 c).2, _)) = _
  rw [h]

/-! ## Programs that are determined -/

variable {φ ι α β : Type} {decide : Policy φ} {may may' : Change → Prop} {P P' : ι → Machine → Prop}
  {s : φ}

/-- Each of a family of programs, run on a machine that `P` allows for it, yields the same value,
leads the surroundings to the same state, and makes the same changes, all of which are ones that
`may` be made. -/
def Determined (decide : Policy φ) (may : Change → Prop) (P : ι → Machine → Prop)
    (p : ι → SystemProgram α) (s : φ) : Prop :=
  ∃ a s' ys, (∀ y ∈ ys, may y) ∧ ∀ i m, P i m →
    ((p i).run decide.blind.handler (m, s)).value = a ∧
      ((p i).run decide.blind.handler (m, s)).world = (m.after ys, s')

namespace Determined

theorem done (a : α) : Determined decide may P (fun _ => .done a) s :=
  ⟨a, s, [], by simp, fun _ _ _ => ⟨rfl, rfl⟩⟩

theorem mono {p : ι → SystemProgram α} (h : Determined decide may P p s)
    (hP : ∀ i m, P' i m → P i m) (hmay : ∀ y, may y → may' y) : Determined decide may' P' p s := by
  obtain ⟨a, s', ys, hys, hrun⟩ := h
  exact ⟨a, s', ys, fun y hy => hmay y (hys y hy), fun i m hm => hrun i m (hP i m hm)⟩

/-- What is determined for two parts of a program is determined for the whole, if the second part is
determined on the machines that the first one leaves. -/
theorem bind_of_imp {p : ι → SystemProgram α} {f : ι → α → SystemProgram β}
    (hp : Determined decide may' P p s) (hmay : ∀ y, may' y → may y)
    (hf : ∀ a s' ys, (∀ y ∈ ys, may' y) →
      Determined decide may (fun i m' => ∃ m, P i m ∧ m' = m.after ys) (fun i => f i a) s') :
    Determined decide may P (fun i => p i >>= f i) s := by
  obtain ⟨a, s₁, xs, hxs, hfirst⟩ := hp
  obtain ⟨b, s₂, ys, hys, hsecond⟩ := hf a s₁ xs hxs
  refine ⟨b, s₂, xs ++ ys, ?_, fun i m hm => ?_⟩
  · intro y hy
    rcases List.mem_append.mp hy with hy | hy
    · exact hmay y (hxs y hy)
    · exact hys y hy
  · obtain ⟨hvalue, hworld⟩ := hfirst i m hm
    obtain ⟨hvalue', hworld'⟩ := hsecond i _ ⟨m, hm, rfl⟩
    rw [run_bind, hvalue, hworld, Run.value_after, Run.world_after, m.after_append]
    exact ⟨hvalue', hworld'⟩

theorem bind {p : ι → SystemProgram α} {f : ι → α → SystemProgram β}
    (hp : Determined decide may P p s)
    (hf : ∀ a s' ys, (∀ y ∈ ys, may y) →
      Determined decide may (fun i m' => ∃ m, P i m ∧ m' = m.after ys) (fun i => f i a) s') :
    Determined decide may P (fun i => p i >>= f i) s :=
  hp.bind_of_imp (fun _ => id) hf

theorem note {p : ι → SystemProgram α} (e : Event) (h : Determined decide may P p s) :
    Determined decide may P (fun i => .note e (p i)) s := h

/-- A call is determined if its answer is, whatever is decided about it. -/
theorem make {c : SystemCall}
    (h : ∀ u, ∃ r ys, (∀ y ∈ ys, may y) ∧ ∀ i m, P i m → m.answer u c = (r, m.after ys)) :
    Determined decide may P (fun _ => c.make) s := by
  obtain ⟨r, ys, hys, hanswer⟩ := h (decide c.unnumbered s).1
  refine ⟨r, (decide c.unnumbered s).2, ys, hys, fun i m hm => ?_⟩
  unfold SystemCall.make
  rw [run_ask, Policy.handler_blind (hanswer i m hm)]
  exact ⟨rfl, rfl⟩

theorem once {c : SystemCall} (h : Determined decide may P (fun _ => c.make) s) :
    Determined decide may P (fun _ => Posix.once c) s :=
  h.bind fun _ _ _ _ => done _

end Determined

/-- Why an unlink fails hangs on what the path leads to. -/
theorem FileTree.unlink_error_congr {t t' : FileTree} {cwd cwd' : Location} {p : Path} {code : Int}
    (hentry : t.resolve .remove cwd p = t'.resolve .remove cwd' p)
    (h : t'.unlink cwd' p = .error code) : t.unlink cwd p = .error code := by
  unfold unlink at h ⊢
  rw [hentry]
  split at h
  · exact h
  · exact h
  · exact h
  · exact h
  · next ends _ _ =>
    cases ends with
    | true => exact h
    | false => exact absurd h (by simp)

/-! ## Calls on the descriptor of a journal -/

namespace Machine

variable {d : Descriptor} {c : SystemCall} {file : Option OpenFile} {old : Option Content}
  {u : Verdict}

/-- A verdict fails every call, or it lets every call do its work. -/
theorem answer_cases (u : Verdict) :
    (∃ code, u = .fail code) ∨ ∀ (m : Machine) (c : SystemCall), m.answer u c = m.perform u c := by
  cases u with
  | fail code => exact .inl ⟨code, rfl⟩
  | proceed | fileSystem | atMost | extendTo => exact .inr fun _ _ => rfl

/-- The machine has this open as the descriptor, with this content. -/
structure Shows (d : Descriptor) (file : Option OpenFile) (old : Option Content) (m : Machine) :
    Prop where
  opened : m.opened d.number = file
  content : file.bind m.contentOf = old

theorem Shows.old_eq {w : Bool} {id : FileId} {m : Machine}
    (h : m.Shows d (some ⟨w, .file id⟩) old) : old = some (m.tree.content id) := h.content.symm

/-- On all machines that show the same the call is answered in the same way, and it changes at most
the content of what is open for writing, in the same way. -/
def Answered (d : Descriptor) (file : Option OpenFile) (old : Option Content) (u : Verdict)
    (c : SystemCall) : Prop :=
  ∃ r ys, (∀ y ∈ ys, ∃ id new, y = .content id new ∧ file = some ⟨true, .file id⟩) ∧
    ∀ m : Machine, m.Shows d file old → m.answer u c = (r, m.after ys)

theorem Answered.kept (r : c.Reply)
    (h : ∀ m : Machine, m.Shows d file old → m.answer u c = (r, m)) : Answered d file old u c :=
  ⟨r, [], by simp, h⟩

theorem Answered.written {id : FileId} (r : c.Reply) (new : Content)
    (h : ∀ m : Machine, m.Shows d (some ⟨true, .file id⟩) old →
      m.answer u c = (r, m.setContent id new)) :
    Answered d (some ⟨true, .file id⟩) old u c := by
  refine ⟨r, [.content id new], fun y hy => ?_, h⟩
  exact ⟨id, new, List.mem_singleton.mp hy, rfl⟩

section

variable (hu : ∀ (m : Machine) (c : SystemCall), m.answer u c = m.perform u c)

include hu

theorem answered_sync (d : Descriptor) (file : Option OpenFile) (old : Option Content) :
    Answered d file old u (.sync d) := by
  cases file with
  | none =>
    refine .kept (.error Errno.badDescriptor) fun m hm => ?_
    simp only [hu, perform, ifOpen, hm.opened]
  | some f =>
    refine .kept (.ok ()) fun m hm => ?_
    simp only [hu, perform, ifOpen, hm.opened]

theorem answered_fileSystem (d : Descriptor) (file : Option OpenFile) (old : Option Content) :
    Answered d file old u (.fileSystem d) := by
  cases file with
  | none =>
    refine .kept (.error Errno.badDescriptor) fun m hm => ?_
    simp only [hu, perform, ifOpen, hm.opened]
  | some f =>
    refine .kept (.ok u.fileSystemWord) fun m hm => ?_
    simp only [hu, perform, ifOpen, hm.opened]

theorem answered_length (d : Descriptor) (file : Option OpenFile) (old : Option Content) :
    Answered d file old u (.length d) := by
  rcases file with _ | ⟨w, _ | id⟩
  · refine .kept (.error Errno.badDescriptor) fun m hm => ?_
    simp only [hu, perform, lengthOf, hm.opened]
  · refine .kept (.ok directoryLength) fun m hm => ?_
    simp only [hu, perform, lengthOf, hm.opened]
  · refine .kept (.ok (old.getD Content.empty).length) fun m hm => ?_
    simp only [hu, perform, lengthOf, hm.opened, hm.old_eq, Option.getD_some]

theorem answered_setLength (d : Descriptor) (file : Option OpenFile) (old : Option Content)
    (n : UInt64) : Answered d file old u (.setLength d n) := by
  by_cases hwritable : ∃ id, file = some ⟨true, .file id⟩
  · obtain ⟨id, rfl⟩ := hwritable
    by_cases hn : n.toNat < offsetLimit
    · refine .written (.ok ()) ((old.getD Content.empty).setLength n.toNat) fun m hm => ?_
      simp only [hu, perform, setLength, hm.opened, hm.old_eq, Option.getD_some, if_pos hn]
    · refine .kept (.error Errno.invalidArgument) fun m hm => ?_
      simp only [hu, perform, setLength, hm.opened, if_neg hn]
  · cases file with
    | none =>
      refine .kept (.error Errno.badDescriptor) fun m hm => ?_
      simp only [hu, perform, setLength, hm.opened]
    | some f =>
      refine .kept (.error Errno.invalidArgument) fun m hm => ?_
      simp only [hu, perform, setLength, hm.opened]
      split
      · next hnone => exact absurd hnone (by simp)
      · next id hsome => exact absurd ⟨id, hsome⟩ hwritable
      · rfl

theorem answered_allocate (d : Descriptor) (file : Option OpenFile) (old : Option Content)
    (n : UInt64) : Answered d file old u (.allocate d n) := by
  by_cases hn : n = 0 ∨ offsetLimit ≤ n.toNat
  · refine .kept (.error Errno.invalidArgument) fun m hm => ?_
    simp only [hu, perform, allocate, if_pos hn]
  by_cases hwritable : ∃ id, file = some ⟨true, .file id⟩
  · obtain ⟨id, rfl⟩ := hwritable
    refine .written (.ok ()) ((old.getD Content.empty).extendTo (max n.toNat u.leastLength))
      fun m hm => ?_
    simp only [hu, perform, allocate, hm.opened, hm.old_eq, Option.getD_some, if_neg hn]
  · refine .kept (.error Errno.badDescriptor) fun m hm => ?_
    simp only [hu, perform, allocate, hm.opened, if_neg hn]
    split
    · exact absurd ⟨_, rfl⟩ hwritable
    · rfl

theorem answered_writeAt (d : Descriptor) (file : Option OpenFile) (old : Option Content)
    (bytes : Bytes) (offset : UInt64) : Answered d file old u (.writeAt d bytes offset) := by
  let part := bytes.take (u.limit bytes.length)
  by_cases hstart : offsetLimit ≤ offset.toNat
  · refine .kept (.error Errno.invalidArgument) fun m hm => ?_
    simp only [hu, perform, writeAt, if_pos hstart]
  by_cases hwritable : ∃ id, file = some ⟨true, .file id⟩
  · obtain ⟨id, rfl⟩ := hwritable
    by_cases hend : offsetLimit ≤ offset.toNat + part.length
    · refine .kept (.error Errno.invalidArgument) fun m hm => ?_
      simp only [hu, perform, writeAt, hm.opened, if_neg hstart]
      exact if_pos hend
    · refine .written (.ok part.length)
        ((old.getD Content.empty).overlay offset.toNat part) fun m hm => ?_
      simp only [hu, perform, writeAt, hm.opened, hm.old_eq, Option.getD_some, if_neg hstart]
      exact if_neg hend
  · refine .kept (.error Errno.badDescriptor) fun m hm => ?_
    simp only [hu, perform, writeAt, hm.opened, if_neg hstart]
    split
    · exact absurd ⟨_, rfl⟩ hwritable
    · rfl

theorem answered_readAt (d : Descriptor) (file : Option OpenFile) (old : Option Content)
    (count : Nat) (offset : UInt64) : Answered d file old u (.readAt d count offset) := by
  by_cases hstart : offsetLimit ≤ offset.toNat
  · refine .kept (.error Errno.invalidArgument) fun m hm => ?_
    simp only [hu, perform, readAt, if_pos hstart]
  by_cases hend : offsetLimit ≤ offset.toNat + u.limit count
  · rcases file with _ | ⟨_ | _, target⟩
    · refine .kept (.error Errno.badDescriptor) fun m hm => ?_
      simp only [hu, perform, readAt, hm.opened, if_neg hstart]
    · refine .kept (.error Errno.invalidArgument) fun m hm => ?_
      simp only [hu, perform, readAt, hm.opened, if_neg hstart, if_pos hend]
    · refine .kept (.error Errno.badDescriptor) fun m hm => ?_
      simp only [hu, perform, readAt, hm.opened, if_neg hstart]
  · rcases file with _ | ⟨_ | _, _ | id⟩
    · refine .kept (.error Errno.badDescriptor) fun m hm => ?_
      simp only [hu, perform, readAt, hm.opened, if_neg hstart]
    · refine .kept (.error Errno.isDirectory) fun m hm => ?_
      simp only [hu, perform, readAt, hm.opened, if_neg hstart, if_neg hend]
    · refine .kept (.ok ((old.getD Content.empty).slice offset.toNat (u.limit count)))
        fun m hm => ?_
      simp only [hu, perform, readAt, hm.opened, if_neg hstart, if_neg hend, hm.old_eq,
        Option.getD_some]
    · refine .kept (.error Errno.badDescriptor) fun m hm => ?_
      simp only [hu, perform, readAt, hm.opened, if_neg hstart]
    · refine .kept (.error Errno.badDescriptor) fun m hm => ?_
      simp only [hu, perform, readAt, hm.opened, if_neg hstart]

end

/-- What is answered to a call on a descriptor, and what the call changes, depends on what is open
as the descriptor and on its content. -/
theorem answered_of_uses (hc : c.Uses d) (u : Verdict) (file : Option OpenFile)
    (old : Option Content) : Answered d file old u c := by
  rcases answer_cases u with ⟨code, rfl⟩ | hu
  · refine .kept (.error code) fun m _ => ?_
    have hkept : m.afterFailure c = m := by
      refine afterFailure_eq ?_
      rintro d' rfl
      exact hc
    exact congrArg (Prod.mk _) hkept
  cases c with
  | sync d' =>
    obtain rfl : d' = d := hc
    exact answered_sync hu d' file old
  | fileSystem d' =>
    obtain rfl : d' = d := hc
    exact answered_fileSystem hu d' file old
  | length d' =>
    obtain rfl : d' = d := hc
    exact answered_length hu d' file old
  | setLength d' n =>
    obtain rfl : d' = d := hc
    exact answered_setLength hu d' file old n
  | allocate d' n =>
    obtain rfl : d' = d := hc
    exact answered_allocate hu d' file old n
  | writeAt d' bytes offset =>
    obtain rfl : d' = d := hc
    exact answered_writeAt hu d' file old bytes offset
  | readAt d' count offset =>
    obtain rfl : d' = d := hc
    exact answered_readAt hu d' file old count offset
  | open_ p mode => exact absurd hc id
  | close d' => exact absurd hc id
  | unlink p => exact absurd hc id
  | inspect p => exact absurd hc id

end Machine

/-! ## Uses of a journal -/

variable {h : Handle} {d : Descriptor} {patience : Nat}

/-- A machine on which a journal has the view `v`. -/
def Looks (h : Handle) (v : View) (m : Machine) : Prop := m.Orderly ∧ m.view h = v

namespace Looks

variable {v : View} {m : Machine}

theorem shows (hm : Looks h v m) (hd : h.descriptor = some d) :
    m.Shows d v.file v.content := by
  obtain ⟨-, rfl⟩ := hm
  have hfile : (m.view h).file = m.opened d.number := Machine.file_view hd
  have hcontent : (m.view h).content = (m.view h).file.bind m.contentOf := rfl
  exact ⟨hfile.symm, hcontent.symm⟩

/-- What is seen along the journal's path is the same on all machines that look the same. -/
theorem pathView_eq {m₀ : Machine} {p : Path} (hm : Looks h v m) (hp : h.path = some p)
    (hm₀ : m₀.view h = v) : m.pathView p = m₀.pathView p := by
  have hpath : (m.view h).path = (m₀.view h).path := by rw [hm.2, hm₀]
  rw [Machine.path_view hp, Machine.path_view hp] at hpath
  exact Option.some.inj hpath

/-- The journal knows its own view after changes that it has made itself. -/
theorem after {ys : List Change} (hm : Looks h v m) (hys : ∀ y ∈ ys, y.Uses v) :
    Looks h (v.after ys) (m.after ys) := by
  obtain ⟨horderly, rfl⟩ := hm
  exact ⟨horderly.after ys, Machine.view_after_of_uses hys⟩

end Looks

/-- What is to be determined by a view is determined if it is for the views of machines. -/
theorem determined_of_view {v : View} {p : SystemProgram α}
    (hp : ∀ m : Machine, m.view h = v →
      Determined decide may (fun _ : ι => Looks h v) (fun _ => p) s) :
    Determined decide may (fun _ : ι => Looks h v) (fun _ => p) s := by
  by_cases hv : ∃ m : Machine, m.view h = v
  · obtain ⟨m, hm⟩ := hv
    exact hp m hm
  · let r := p.run decide.blind.handler (Machine.ofTree .empty [], s)
    exact ⟨r.value, s, [], by simp, fun _ m hm => absurd ⟨m, hm.2⟩ hv⟩

/-- What is done by serving requests, each of which is determined by the view of a journal and only
uses it, is determined by the view of the journal. -/
theorem determined_through {I : Interface} {serve : (q : I.Request) → SystemProgram (I.Reply q)}
    {Q : I.Request → Prop}
    (hserve : ∀ q, Q q → ∀ v s,
      Determined decide (Change.Uses v) (fun _ : ι => Looks h v) (fun _ => serve q) s)
    {p : Program I Event α} (hp : p.Asks Q) (v : View) (s : φ) :
    Determined decide (Change.Uses v) (fun _ : ι => Looks h v) (fun _ => p.through serve) s := by
  induction p generalizing v s with
  | done a => exact .done a
  | note e next ih => exact (ih hp v s).note e
  | ask q next ih =>
    refine (hserve q hp.1 v s).bind fun r s' ys hys => ?_
    refine (ih r (hp.2 r) (v.after ys) s').mono ?_ ?_
    · rintro _ _ ⟨m, hm, rfl⟩
      exact hm.after hys
    · intro y hy
      exact (View.uses_after ys).mp hy

/-- A program that makes calls on the descriptor of a journal only is determined by the view of the
journal. -/
theorem determined_of_uses (hd : h.descriptor = some d) {p : SystemProgram α}
    (hp : p.Asks (SystemCall.Uses d)) (v : View) (s : φ) :
    Determined decide (Change.Uses v) (fun _ : ι => Looks h v) (fun _ => p) s := by
  have hmade : p.through SystemCall.make = p := through_request p
  rw [← hmade]
  refine determined_through (fun c hc v s => .make fun u => ?_) hp v s
  obtain ⟨r, ys, hys, hanswer⟩ := Machine.answered_of_uses hc u v.file v.content
  refine ⟨r, ys, fun y hy => ?_, fun _ m hm => hanswer m (hm.shows hd)⟩
  obtain ⟨id, new, rfl, hfile⟩ := hys y hy
  exact hfile

/-! ## The sync of a directory -/

/-- Something is open under a number. -/
def Machine.OpenUnder (n : Nat) (m : Machine) : Prop := m.opened n ≠ none

namespace Machine

variable {m : Machine} {n : Nat} {q : Path}

/-- What a sync of something that is open is answered with. -/
def syncReply : Verdict → Except Int Unit
  | .fail code => .error code
  | _ => .ok ()

/-- What is said of the file system that something open lies on. -/
def fileSystemReply : Verdict → Except Int UInt64
  | .fail code => .error code
  | u => .ok u.fileSystemWord

/-- What an opening is answered with that finds `x` at the path. -/
def openReply (x : Except Int FileTree.Target) : Verdict → Except Int FileTree.Target
  | .fail code => .error code
  | _ => x

/-- What comes of an opening for reading that ends in this target or in an error: the number of the
descriptor is the machine's own. -/
def opening {ε : Type} (m : Machine) (q : Path) :
    Except ε FileTree.Target → Except ε Descriptor × Machine
  | .error e => (.error e, m)
  | .ok target => (.ok ⟨m.nextNumber, q⟩, (m.openTarget q ⟨false, target⟩).2)

theorem answer_open (m : Machine) (q : Path) (u : Verdict) :
    m.answer u (.open_ q .read) =
      m.opening q (openReply (m.tree.openExisting m.workingDirectory q) u) := by
  have hperform : m.openPath q .read =
      m.opening q (m.tree.openExisting m.workingDirectory q) := by
    unfold openPath opening
    cases m.tree.openExisting m.workingDirectory q <;> rfl
  cases u with
  | fail code => rfl
  | proceed | fileSystem | atMost | extendTo => exact hperform

theorem answer_sync (hm : m.OpenUnder n) (u : Verdict) :
    m.answer u (.sync ⟨n, q⟩) = (syncReply u, m) := by
  obtain ⟨f, hf⟩ := Option.ne_none_iff_exists'.mp hm
  have hopen : m.ifOpen ⟨n, q⟩ () = .ok () := by
    unfold ifOpen
    rw [hf]
  cases u with
  | fail code => rfl
  | proceed | fileSystem | atMost | extendTo => exact congrArg (·, m) hopen

theorem answer_fileSystem (hm : m.OpenUnder n) (u : Verdict) :
    m.answer u (.fileSystem ⟨n, q⟩) = (fileSystemReply u, m) := by
  obtain ⟨f, hf⟩ := Option.ne_none_iff_exists'.mp hm
  have hopen : m.ifOpen ⟨n, q⟩ u.fileSystemWord = .ok u.fileSystemWord := by
    unfold ifOpen
    rw [hf]
  cases u with
  | fail code => rfl
  | proceed | fileSystem | atMost | extendTo => exact congrArg (·, m) hopen

end Machine

namespace Posix

variable {q : Path}

theorem run_once {W : Type} {hd : Handler System W} {c : SystemCall} {r : c.Reply} {w w' : W}
    (h : hd c w = (r, w')) :
    ((once c).run hd w).value = ofSystem r ∧ ((once c).run hd w).world = w' := by
  show (ofSystem (hd c w).1 = _) ∧ (hd c w).2 = w'
  rw [h]
  exact ⟨rfl, rfl⟩

/-- Whatever its number, something that is open is synced with the same result. -/
theorem determined_persist_sync (q : Path) (patience : Nat) (s : φ) :
    Determined (α := Except Int Unit) decide may Machine.OpenUnder
      (fun n => persist (.sync ⟨n, q⟩) patience) s := by
  let c : SystemCall := .sync ⟨0, q⟩
  have hhandler : ∀ n m s, Machine.OpenUnder n m → decide.blind.handler (.sync ⟨n, q⟩) (m, s) =
      (Machine.syncReply (decide c s).1, (m, (decide c s).2)) := by
    intro n m s hm
    exact Policy.handler_blind (Machine.answer_sync hm _)
  induction patience generalizing s with
  | zero =>
    refine ⟨Machine.syncReply (decide c s).1, (decide c s).2, [], by simp, fun n m hm => ?_⟩
    unfold persist SystemCall.make
    rw [run_ask, hhandler n m s hm]
    exact ⟨rfl, rfl⟩
  | succ patience ih =>
    by_cases hagain : Machine.syncReply (decide c s).1 = .error Errno.interrupted
    · obtain ⟨a, s', ys, hys, hrun⟩ := ih (decide c s).2
      refine ⟨a, s', ys, hys, fun n m hm => ?_⟩
      unfold persist
      rw [run_ask, hhandler n m s hm, hagain]
      exact hrun n m hm
    · refine ⟨Machine.syncReply (decide c s).1, (decide c s).2, [], by simp, fun n m hm => ?_⟩
      unfold persist
      rw [run_ask, hhandler n m s hm]
      cases hreply : Machine.syncReply (decide c s).1 with
      | ok u => exact ⟨rfl, rfl⟩
      | error code =>
        have hcode : code ≠ Errno.interrupted := by
          rintro rfl
          exact hagain hreply
        simp only [if_neg hcode]
        exact ⟨rfl, rfl⟩

theorem determined_policyOf (q : Path) (s : φ) :
    Determined decide may Machine.OpenUnder (fun n => policyOf ⟨n, q⟩) s := by
  let c : SystemCall := .fileSystem ⟨0, q⟩
  have hhandler : ∀ n m, Machine.OpenUnder n m → decide.blind.handler (.fileSystem ⟨n, q⟩) (m, s) =
      (Machine.fileSystemReply (decide c s).1, (m, (decide c s).2)) := by
    intro n m hm
    exact Policy.handler_blind (Machine.answer_fileSystem hm _)
  have hcall : Determined (α := Except SystemError UInt64) decide may Machine.OpenUnder
      (fun n => once (.fileSystem ⟨n, q⟩)) s := by
    refine ⟨ofSystem (Machine.fileSystemReply (decide c s).1), (decide c s).2, [], by simp, ?_⟩
    intro n m hm
    exact run_once (hhandler n m hm)
  refine hcall.bind fun r s' ys _ => ?_
  cases r with
  | ok word => exact .done _
  | error e => exact .done _

/-- Whatever its number, a directory that is open is synced with the same result. -/
theorem determined_syncDirectory (q : Path) (s : φ) :
    Determined decide (fun _ => False) Machine.OpenUnder
      (fun n => syncDirectory patience q ⟨n, q⟩) s := by
  refine (determined_policyOf q s).bind fun r s' ys hys => ?_
  obtain rfl : ys = [] := List.eq_nil_iff_forall_not_mem.mpr hys
  rcases r with e | _ | _
  · exact .done _
  · have hsync : Determined decide (fun _ => False) Machine.OpenUnder
        (fun n => sync patience ⟨n, q⟩) s' :=
      (determined_persist_sync q patience s').bind fun _ _ _ _ => .done _
    refine (hsync.mono ?_ fun _ => id).bind fun r s'' zs _ => ?_
    · rintro n _ ⟨m, hm, rfl⟩
      exact hm
    · rcases r with e | u
      · exact .done _
      · exact .done _
  · exact .note _ (.done _)

/-- On all machines where the path leads to the same target, the program opens it with the same
result, but for the number of the descriptor. -/
def OpensAlike {ε : Type} (decide : Policy φ) (q : Path) (x : Except Int FileTree.Target)
    (p : SystemProgram (Except ε Descriptor)) (s : φ) : Prop :=
  ∃ y s', ∀ m : Machine, m.tree.openExisting m.workingDirectory q = x →
    (p.run decide.blind.handler (m, s)).value = (m.opening q y).1 ∧
      (p.run decide.blind.handler (m, s)).world = ((m.opening q y).2, s')

theorem opensAlike_persist (q : Path) (x : Except Int FileTree.Target) (patience : Nat) (s : φ) :
    OpensAlike (ε := Int) decide q x (persist (.open_ q .read) patience) s := by
  let c : SystemCall := .open_ q .read
  have hhandler : ∀ (m : Machine) s, m.tree.openExisting m.workingDirectory q = x →
      decide.blind.handler c (m, s) =
        ((m.opening q (Machine.openReply x (decide c s).1)).1,
          ((m.opening q (Machine.openReply x (decide c s).1)).2, (decide c s).2)) := by
    rintro m s rfl
    exact Policy.handler_blind (m.answer_open q _)
  induction patience generalizing s with
  | zero =>
    refine ⟨Machine.openReply x (decide c s).1, (decide c s).2, fun m hm => ?_⟩
    unfold persist SystemCall.make
    rw [run_ask, hhandler m s hm]
    exact ⟨rfl, rfl⟩
  | succ patience ih =>
    by_cases hagain : Machine.openReply x (decide c s).1 = .error Errno.interrupted
    · -- nothing has happened to the machine, and the call is made again
      obtain ⟨y, s', hrun⟩ := ih (decide c s).2
      refine ⟨y, s', fun m hm => ?_⟩
      unfold persist
      rw [run_ask, hhandler m s hm, hagain]
      exact hrun m hm
    · refine ⟨Machine.openReply x (decide c s).1, (decide c s).2, fun m hm => ?_⟩
      unfold persist
      rw [run_ask, hhandler m s hm]
      cases hreply : Machine.openReply x (decide c s).1 with
      | ok target => exact ⟨rfl, rfl⟩
      | error code =>
        have hcode : code ≠ Errno.interrupted := by
          rintro rfl
          exact hagain hreply
        simp only [Machine.opening, if_neg hcode]
        exact ⟨rfl, rfl⟩

theorem opensAlike_openPath (q : Path) (x : Except Int FileTree.Target) (patience : Nat) (s : φ) :
    OpensAlike (ε := SystemError) decide q x (openPath patience q .read) s := by
  unfold openPath
  by_cases hzero : q.hasZeroByte = true
  · refine ⟨.error .zeroByteInPath, s, fun m _ => ?_⟩
    rw [if_pos hzero]
    exact ⟨rfl, rfl⟩
  · rw [if_neg hzero]
    have hopen : OpensAlike decide q x (persist (.open_ q .read) patience) s :=
      opensAlike_persist q x patience s
    obtain ⟨y, s', hrun⟩ := hopen
    refine ⟨ofSystem y, s', fun m hm => ?_⟩
    obtain ⟨hvalue, hworld⟩ := hrun m hm
    rw [run_bind, hvalue, hworld]
    cases y with
    | error code => exact ⟨rfl, rfl⟩
    | ok target => exact ⟨rfl, rfl⟩

/-- A descriptor that was just opened and is closed again leaves nothing but that its number was
handed out. -/
theorem forget_openTarget {m : Machine} (hm : m.Orderly) (q : Path) (f : OpenFile) :
    (m.openTarget q f).2.forget m.nextNumber = m.apply .handedOut := by
  have hopened : ((m.openTarget q f).2.forget m.nextNumber).opened = m.opened := by
    funext k
    simp only [Machine.forget, Machine.openTarget]
    by_cases hk : k = m.nextNumber
    · rw [if_pos hk, hk, hm _ (Nat.le_refl _)]
    · rw [if_neg hk, if_neg hk]
  exact congrArg (fun opened => ({ m with opened := opened, nextNumber := _ } : Machine)) hopened

/-- Closing what is open forgets it, whatever is decided about the call. -/
theorem snd_answer_close {m : Machine} {n : Nat} (hm : m.OpenUnder n) (u : Verdict) :
    (m.answer u (.close ⟨n, q⟩)).2 = m.forget n := by
  obtain ⟨f, hf⟩ := Option.ne_none_iff_exists'.mp hm
  have hclose : (m.close ⟨n, q⟩).2 = m.forget n := by
    unfold Machine.close
    rw [hf]
  cases u with
  | fail code => rfl
  | proceed | fileSystem | atMost | extendTo => exact hclose

/-- The sync of the directory of a path depends on what the directory is opened as, whatever number
it is given.  It leaves nothing but that the number was handed out. -/
theorem determined_syncDirectoryFor (p : Path) (x : Except Int FileTree.Target) (s : φ) :
    Determined decide (· = .handedOut)
      (fun (_ : ι) m => m.Orderly ∧ m.tree.openExisting m.workingDirectory p.directory = x)
      (fun _ => syncDirectoryFor patience p) s := by
  have halike : OpensAlike decide p.directory x (openPath patience p.directory .read) s :=
    opensAlike_openPath p.directory x patience s
  obtain ⟨y, s₁, hopen⟩ := halike
  cases y with
  | error e =>
    refine ⟨.error (.opening p.directory e), s₁, [], by simp, fun _ m hm => ?_⟩
    obtain ⟨hvalue, hworld⟩ := hopen m hm.2
    unfold syncDirectoryFor withDirectory
    rw [run_bind, hvalue, hworld]
    exact ⟨rfl, rfl⟩
  | ok target =>
    have hdetermined : Determined decide (fun _ => False) Machine.OpenUnder
        (fun n => syncDirectory patience p.directory ⟨n, p.directory⟩) s₁ :=
      determined_syncDirectory p.directory s₁
    obtain ⟨a, s₂, ys, hys, hsync⟩ := hdetermined
    obtain rfl : ys = [] := List.eq_nil_iff_forall_not_mem.mpr hys
    refine ⟨a, (decide (.close ⟨0, p.directory⟩) s₂).2, [.handedOut],
      fun y hy => List.mem_singleton.mp hy, fun _ m hm => ?_⟩
    obtain ⟨hvalue, hworld⟩ := hopen m hm.2
    let m₁ := (m.openTarget p.directory ⟨false, target⟩).2
    have hopened : m₁.OpenUnder m.nextNumber := by
      show (if m.nextNumber = m.nextNumber then _ else _) ≠ none
      rw [if_pos rfl]
      simp
    obtain ⟨hvalue', hworld'⟩ := hsync m.nextNumber m₁ hopened
    have hclosed : (m₁.answer (decide (.close ⟨0, p.directory⟩) s₂).1
        (.close ⟨m.nextNumber, p.directory⟩)).2 = m.apply .handedOut :=
      (snd_answer_close hopened _).trans (forget_openTarget hm.1 p.directory _)
    unfold syncDirectoryFor withDirectory
    rw [run_bind, hvalue, hworld]
    simp only [Machine.opening, Run.value_after, Run.world_after]
    rw [run_bind, hvalue', hworld', run_bind]
    exact ⟨rfl, congrArg (·, (decide (.close ⟨0, p.directory⟩) s₂).2) hclosed⟩

end Posix

/-! ## The operations that use a journal -/

/-- The steps that a journal is used by: those on its own descriptor, and the sync of the directory
of its own path. -/
def Handle.Uses (h : Handle) (d : Descriptor) (q : Step) : Prop :=
  q.Uses d ∧ ∀ p, q = .syncDirectoryFor p → h.path = some p

namespace Handle

theorem uses_of_ne {q : Step} (hq : q.Uses d) (hne : ∀ p, q ≠ .syncDirectoryFor p) : h.Uses d q :=
  ⟨hq, fun p hp => absurd hp (hne p)⟩

theorem asks_uses_write (hd : h.descriptor = some d) (bytes : Bytes) (offset : UInt64) :
    (h.write bytes offset).Asks (h.Uses d) := by
  unfold write withFile
  rw [hd]
  exact asks_writeRest d offset _ 0 bytes fun _ _ => uses_of_ne rfl (by simp)

theorem asks_uses_read (hd : h.descriptor = some d) (buffer : Bytes) (offset : UInt64) :
    (h.read buffer offset).Asks (h.Uses d) := by
  unfold read
  rw [hd]
  exact asks_readRest d offset 0 buffer _ fun _ _ => uses_of_ne rfl (by simp)

theorem asks_uses_truncate (hd : h.descriptor = some d) (size : UInt64) :
    (h.truncate size).Asks (h.Uses d) := by
  refine h.asks_truncate_of hd size (uses_of_ne rfl (by simp)) (uses_of_ne rfl (by simp)) ?_
  intro p hp
  refine ⟨trivial, fun q hq => ?_⟩
  obtain rfl := Step.syncDirectoryFor.inj hq
  exact hp

theorem asks_uses_size (hd : h.descriptor = some d) : h.size.Asks (h.Uses d) := by
  unfold size withFile
  rw [hd]
  exact Asks.bind (Asks.request (uses_of_ne rfl (by simp))) fun _ => trivial

end Handle

namespace Posix

theorem determined_serve_of_uses (hd : h.descriptor = some d) {q : Step} (hq : h.Uses d q)
    (patience : Nat) (v : View) (s : φ) :
    Determined decide (Change.Uses v) (fun _ : ι => Looks h v) (fun _ => serve patience q) s := by
  obtain ⟨huses, hpath⟩ := hq
  by_cases hdirectory : ∃ p, q = .syncDirectoryFor p
  · obtain ⟨p, rfl⟩ := hdirectory
    refine determined_of_view fun m₀ hm₀ => ?_
    refine (determined_syncDirectoryFor p (m₀.pathView p).directory s).mono ?_ ?_
    · intro _ m hm
      exact ⟨hm.1, congrArg PathView.directory (hm.pathView_eq (hpath p rfl) hm₀)⟩
    · rintro y rfl
      trivial
  · refine determined_of_uses hd (asks_serve_uses huses (fun _ => id) patience fun p hp => ?_) v s
    exact absurd ⟨p, hp⟩ hdirectory

/-- What uses a journal is determined by the view of the journal. -/
theorem determined_native_of_uses (hd : h.descriptor = some d) {p : StepProgram α}
    (hp : p.Asks (h.Uses d)) (patience : Nat) (v : View) (s : φ) :
    Determined decide (Change.Uses v) (fun _ : ι => Looks h v) (fun _ => native patience p) s :=
  determined_through (fun _ hq v s => determined_serve_of_uses hd hq patience v s) hp v s

/-! ## The operations that end a journal -/

/-- An unlink of a journal's path removes the entry that the journal sees there, or nothing. -/
theorem determined_unlink {p : Path} (hp : h.path = some p) (hephemeral : h.deleteOnClose = true)
    (v : View) (s : φ) :
    Determined decide (fun y => ∃ l, y = .removed l ∧ v.unlinks = some l)
      (fun _ : ι => Looks h v) (fun _ => unlink p) s := by
  refine determined_of_view fun m₀ hm₀ => ?_
  have hentry : ∀ m : Machine, Looks h v m → m.tree.resolve .remove m.workingDirectory p =
      (m₀.pathView p).entry :=
    fun m hm => congrArg PathView.entry (hm.pathView_eq hp hm₀)
  unfold unlink
  by_cases hzero : p.hasZeroByte = true
  · simp only [if_pos hzero]
    exact .done _
  simp only [if_neg hzero]
  refine Determined.once (.make fun u => ?_)
  rcases Machine.answer_cases u with ⟨code, rfl⟩ | hperform
  · exact ⟨.error code, [], by simp, fun _ _ _ => rfl⟩
  -- what the unlink does hangs on what the path leads to
  cases hunlink : m₀.tree.unlink m₀.workingDirectory p with
  | ok t =>
    obtain ⟨dir, n, e, hfound, he, -⟩ := FileTree.unlink_eq_ok_iff.mp hunlink
    have hunlinks : v.unlinks = some (n :: dir) := by
      rw [← hm₀]
      refine Machine.unlinks_view_eq_some_iff.mpr ⟨hephemeral, p, hp, ?_⟩
      unfold PathView.location?
      rw [show (m₀.pathView p).entry = _ from hfound]
    refine ⟨.ok (), [.removed (n :: dir)], fun y hy => ?_, fun _ m hm => ?_⟩
    · exact ⟨n :: dir, List.mem_singleton.mp hy, hunlinks⟩
    · have hok : m.tree.unlink m.workingDirectory p = .ok (m.tree.erase (n :: dir)) :=
        FileTree.unlink_eq_ok_iff.mpr ⟨dir, n, e, (hentry m hm).trans hfound, he, rfl⟩
      rw [hperform, Machine.perform, Machine.unlink, hok]
      rfl
  | error code =>
    refine ⟨.error code, [], by simp, fun _ m hm => ?_⟩
    have herror : m.tree.unlink m.workingDirectory p = .error code :=
      FileTree.unlink_error_congr (hentry m hm) hunlink
    rw [hperform, Machine.perform, Machine.unlink, herror]
    rfl

/-- A close forgets what is open under the number, if anything is. -/
theorem determined_close (d : Descriptor) (file : Option OpenFile) (s : φ) :
    Determined decide (· = .closed d.number) (fun (_ : ι) m => m.opened d.number = file)
      (fun _ => once (.close d)) s := by
  refine Determined.once (.make fun u => ?_)
  rcases Machine.answer_cases u with ⟨code, rfl⟩ | hperform
  · exact ⟨.error code, [.closed d.number], fun y hy => List.mem_singleton.mp hy, fun _ _ _ => rfl⟩
  cases file with
  | none =>
    refine ⟨.error Errno.badDescriptor, [], by simp, fun _ m hm => ?_⟩
    rw [hperform, Machine.perform, Machine.close, hm]
    rfl
  | some f =>
    refine ⟨.ok (), [.closed d.number], fun y hy => List.mem_singleton.mp hy, fun _ m hm => ?_⟩
    rw [hperform, Machine.perform, Machine.close, hm]
    rfl

/-- Removing entries leaves the table of descriptors alone. -/
theorem opened_after_of_removed {ys : List Change} (hys : ∀ y ∈ ys, ∃ l, y = .removed l)
    (m : Machine) : (m.after ys).opened = m.opened := by
  induction ys generalizing m with
  | nil => rfl
  | cons y ys ih =>
    obtain ⟨l, rfl⟩ := hys y List.mem_cons_self
    exact ih (fun x hx => hys x (List.mem_cons_of_mem _ hx)) _

theorem determined_unlinkIfAny (h : Handle) (patience : Nat) (v : View) (s : φ) :
    Determined decide (fun y => ∃ l, y = .removed l ∧ v.unlinks = some l)
      (fun _ : ι => Looks h v)
      (fun _ => native patience (Handle.unlinkIfAny (h.unlinkPath? Features.posix))) s := by
  cases hp : h.unlinkPath? Features.posix with
  | none => exact .done _
  | some p =>
    obtain ⟨hephemeral, hpath⟩ : h.deleteOnClose = true ∧ h.path = some p := by
      unfold Handle.unlinkPath? at hp
      split at hp
      · next hdelete => exact ⟨by simpa [Features.posix] using hdelete, hp⟩
      · exact absurd hp (by simp)
    unfold Handle.unlinkIfAny
    rw [native_bind, native_take]
    refine (determined_unlink hpath hephemeral v s).bind fun r s' ys _ => ?_
    rcases r with e | u
    · exact .done _
    · exact .done _

theorem determined_closeAfter (d : Descriptor) (unlinked : Except JournalError Unit)
    (patience : Nat) (file : Option OpenFile) (s : φ) :
    Determined decide (· = .closed d.number) (fun (_ : ι) m => m.opened d.number = file)
      (fun _ => native patience (Handle.closeAfter d unlinked)) s := by
  unfold Handle.closeAfter
  rw [native_bind, native_take]
  refine (determined_close d file s).bind fun r s' ys _ => ?_
  rcases r with e | u
  · rcases unlinked with first | u
    · exact .note _ (.done _)
    · exact .done _
  · exact .done _

/-- A release is determined by the view of the journal. -/
theorem determined_release (hd : h.descriptor = some d) (patience : Nat) (v : View) (s : φ) :
    Determined decide (Change.MadeBy v) (fun _ : ι => Looks h v)
      (fun _ => native patience (h.release Features.posix)) s := by
  refine determined_of_view fun m₀ hm₀ => ?_
  have hnumber : v.number = some d.number := by
    rw [← hm₀, Machine.number_view hd]
  rw [Handle.release_of_descriptor_eq_some _ h hd, native_bind]
  refine (determined_unlinkIfAny h patience v s).bind_of_imp ?_ fun unlinked s' ys hys => ?_
  · rintro y ⟨l, rfl, hl⟩
    exact hl
  have hremoved : ∀ y ∈ ys, ∃ l, y = Change.removed l := by
    intro y hy
    obtain ⟨l, hl, -⟩ := hys y hy
    exact ⟨l, hl⟩
  rw [native_bind]
  refine ((determined_closeAfter d unlinked patience v.file s').mono ?_ ?_).bind
    fun _ _ _ _ => .done _
  · -- the unlink before has left what is open alone
    rintro _ _ ⟨m, hm, rfl⟩
    rw [opened_after_of_removed hremoved]
    exact (hm.shows hd).opened
  · rintro y rfl
    exact hnumber

theorem determined_handleClose (hd : h.descriptor = some d) (patience : Nat) (v : View) (s : φ) :
    Determined decide (Change.MadeBy v) (fun _ : ι => Looks h v)
      (fun _ => native patience (h.close Features.posix)) s := by
  rw [Handle.close_eq, native_bind]
  exact (determined_release hd patience v s).bind fun _ _ _ _ => .note _ (.done _)

theorem determined_handleDrop (hd : h.descriptor = some d) (patience : Nat) (v : View) (s : φ) :
    Determined decide (Change.MadeBy v) (fun _ : ι => Looks h v)
      (fun _ => native patience (h.drop Features.posix)) s := by
  unfold Handle.drop
  rw [native_bind]
  refine (determined_release hd patience v s).bind fun r _ _ _ => ?_
  obtain ⟨e | u, h'⟩ := r
  · exact .note _ (.done _)
  · exact .done _

end Posix

end WriteAhead
