/-
# An ephemeral journal leaves no trace

A journal opened in memory-only mode at a path that names nothing makes a file there, and its
release takes the name away again.  Between the two the path names the file; before and afterwards
the tree holds what it held, whatever else has failed and whichever way the journal ended.

* `Ephemeral.step` : what the calls of each phase preserve;
* `Session.ephemeral_leaves_no_trace` : the tree at every moment of a session with such a journal.
-/
import WriteAhead.Proofs.Bystanders
import WriteAhead.Proofs.Course

namespace WriteAhead

open Program

/-! ## Trees -/

namespace FileTree

variable {t t' : FileTree} {cwd d : Location} {p : Path} {n : Name} {id : FileId}

/-- The trees hold the same entry at each location, and files with a name have the same content. -/
structure Alike (t t' : FileTree) : Prop where
  find : ∀ l, t'.find l = t.find l
  content : ∀ l id, t.find l = some (.file id) → t'.content id = t.content id

theorem Alike.refl (t : FileTree) : t.Alike t := ⟨fun _ => rfl, fun _ _ _ => rfl⟩

/-- The path names nothing, and leads to a free name in a directory. -/
structure LeadsToFree (t : FileTree) (cwd : Location) (p : Path) (d : Location) (n : Name) :
    Prop where
  visit : t.resolve .visit cwd p = .ok (.absent d n false)
  remove : t.resolve .remove cwd p = .ok (.absent d n false)

/-- A path names the entry that could be removed there. -/
theorem inspectEntry_of_resolve_remove {e : Entry}
    (h : t.resolve .remove cwd p = .ok (.entry d n e false)) : t.inspectEntry cwd p = .ok () := by
  unfold inspectEntry
  rw [resolve_inspect (endsInSeparator_of_resolve h rfl), h]
  cases e <;> rfl

/-- Where a path names nothing, a file can only be made at the free name that the path leads to. -/
theorem leadsToFree_of_openOrMake (habsent : t.inspectEntry cwd p ≠ .ok ())
    (h : t.openOrMake cwd p = .ok (id, t')) :
    ∃ d n, t.LeadsToFree cwd p d n ∧ t' = (t.makeFile (n :: d) Content.empty).1 ∧
      id = t.nextFile := by
  -- the path could still name a link itself, but a link is an entry as well
  have hlink : ∀ {f}, t.resolve .visit cwd p = .ok f → f.claimsDirectory = false →
      t.resolve .remove cwd p = .ok f := by
    intro f hvisit hf
    rcases resolve_remove_of_visit hvisit with hremove | ⟨d, n, target, b, hremove⟩
    · exact hremove
    · refine absurd ?_ habsent
      unfold inspectEntry
      rw [resolve_inspect (endsInSeparator_of_resolve hvisit hf), hremove]
  rcases openOrMake_cases h with ⟨-, hopen⟩ | ⟨d, n, hvisit, ht, hid⟩
  · obtain ⟨d, n, hvisit⟩ := resolve_of_openExisting hopen
    exact absurd (inspectEntry_of_resolve_remove (hlink hvisit rfl)) habsent
  · exact ⟨d, n, ⟨hvisit, hlink hvisit rfl⟩, ht, hid⟩

/-- The name of a file that was just made can be removed, and then the tree holds what it held. -/
theorem LeadsToFree.alike_erase (h : t.LeadsToFree cwd p d n) (hfresh : t.Fresh) (c : Content) :
    t.Alike ((t.makeFile (n :: d) c).1.erase (n :: d)) := by
  have hfree : t.find (n :: d) = none := (resolve_makeFile h.visit c).1
  refine ⟨fun l => ?_, fun l id hl => ?_⟩
  · by_cases hl : l = n :: d
    · rw [hl, hfree, find_erase _ _ _ (by simp), if_pos rfl]
    · rw [find_erase_of_ne hl, find_makeFile, if_neg hl]
  · have hne : id ≠ t.nextFile := Nat.ne_of_lt (hfresh l id hl)
    simp [makeFile, content_insert, content_setContent, hne]

theorem LeadsToFree.unlink (h : t.LeadsToFree cwd p d n) (c : Content)
    (ht' : ∀ l, t'.find l = (t.makeFile (n :: d) c).1.find l) :
    t'.unlink cwd p = .ok (t'.erase (n :: d)) := by
  have hfile : t'.resolve .remove cwd p = .ok (.entry d n (.file t.nextFile) false) :=
    (resolve_congr ht' .remove cwd p).trans (resolve_makeFile h.remove c).2
  exact unlink_eq_ok_iff.mpr ⟨d, n, _, hfile, by simp, rfl⟩

end FileTree

namespace Machine

variable {P : SystemCall → Verdict → Prop} {m m' : Machine} {p : Path}

/-- What cannot be opened for reading is refused with the code that the tree gives. -/
theorem Answers.openRead_of_error {code : Int}
    (hopen : m.tree.openExisting m.workingDirectory p = .error code)
    (hfail : ¬ CanFail P (.open_ p .read)) {r : Except Int Descriptor}
    (h : m.Answers P (.open_ p .read) r m') : r = .error code := by
  rcases h.cases with ⟨code', hcode, -, -⟩ | ⟨v, -, hv⟩
  · exact absurd ⟨code', hcode⟩ hfail
  · simp only [perform, openPath, hopen] at hv
    exact (Prod.mk.inj hv).1.symm

end Machine

/-- A journal cannot be opened for reading where nothing can be opened. -/
theorem Posix.openForRead_of_error {ψ : Type} {patience : Nat} {decide : Policy ψ} {m : Machine}
    {s : ψ} {p : Path} {code : Int} (hzero : p.hasZeroByte = false)
    (hopen : m.tree.openExisting m.workingDirectory p = .error code)
    (hfail : ∀ s code, (decide (.open_ p .read) s).1 ≠ .fail code) :
    ((native patience (Journal.openForRead p)).run decide.handler (m, s)).value =
      .error (.opening p (.code code)) := by
  have hwithin : decide.Within fun c v => c = .open_ p .read → ∀ code, v ≠ .fail code := by
    rintro c s rfl code
    exact hfail s code
  have hends := canEnd_run hwithin (native patience (Journal.openForRead p)) (m, s)
  generalize (native patience (Journal.openForRead p)).run decide.handler (m, s) = r at hends ⊢
  unfold Journal.openForRead at hends
  rw [native_bind, native_take] at hends
  obtain ⟨a, m₁, xs, ys, ha, hr, -⟩ := ends_bind.mp hends
  obtain ⟨-, ⟨reply, hreply, rfl⟩ | ⟨-, hzero', -⟩⟩ := ends_openPath ha
  · obtain rfl := hreply.openRead_of_error hopen fun ⟨code, h⟩ => h rfl code rfl
    exact hr.1
  · exact absurd (hzero.symm.trans hzero') (by simp)

/-! ## The machine in each phase -/

/-- What the machine is like in each phase of an ephemeral journal: what it was; or with a new file
at the path, whose content may be anything; or with this file, but without its name. -/
def Ephemeral (m₀ : Machine) (p : Path) : Phase → Machine → Prop
  | .unopened, m => m = m₀
  | .opened d, m => ∃ dir n, m₀.tree.LeadsToFree m₀.workingDirectory p dir n ∧
      m.Confined (fun id => id = m₀.tree.nextFile) d
        (m₀.tree.makeFile (n :: dir) Content.empty).1 m₀.workingDirectory
  | .unlinked d, m => ∃ dir n, m₀.tree.LeadsToFree m₀.workingDirectory p dir n ∧
      m.Confined (fun id => id = m₀.tree.nextFile) d
        ((m₀.tree.makeFile (n :: dir) Content.empty).1.erase (n :: dir)) m₀.workingDirectory

namespace Ephemeral

variable {m₀ m m' : Machine} {p : Path} {support : DurabilitySupport} {x y : Phase}
  {c : SystemCall} {d : Descriptor}

/-- What the calls of each phase preserve, where unlinking works. -/
theorem step (habsent : m₀.tree.inspectEntry m₀.workingDirectory p ≠ .ok ())
    (h : Ephemeral m₀ p x m) {r : c.Reply}
    (hphase : (Course.writer p .pureMemory support).Allows x c r y)
    (hr : m.Answers UnlinkWorks c r m') : Ephemeral m₀ p y m' := by
  cases hphase with
  | refused code =>
    rw [hr.of_error (by simp)]
    exact h
  | opened d _ =>
    obtain rfl : m = m₀ := h
    rcases hr.openWrite with ⟨id, t, hmake, hd, rfl⟩ | ⟨-, ⟨code, hd⟩, -⟩
    · obtain rfl := Except.ok.inj hd
      obtain ⟨dir, n, hfree, rfl, rfl⟩ := FileTree.leadsToFree_of_openOrMake habsent hmake
      have htarget : ∀ id, (⟨true, .file m.tree.nextFile⟩ : OpenFile) = ⟨true, .file id⟩ →
          id = m.tree.nextFile := by
        intro id hid
        simpa using hid.symm
      exact ⟨dir, n, hfree, Machine.Confined.openTarget
        (m := { m with tree := (m.tree.makeFile (n :: dir) Content.empty).1 }) (p := p) htarget⟩
    · exact absurd hd (by simp)
  | through r hd hc =>
    cases x with
    | unopened => exact absurd hd (by simp [Phase.descriptor?])
    | opened d' | unlinked d' =>
      obtain rfl := Option.some.inj hd
      obtain ⟨dir, n, hfree, hconfined⟩ := h
      exact ⟨dir, n, hfree, hconfined.answers hc hr⟩
  | unlinked d r _ =>
    obtain ⟨dir, n, hfree, hconfined⟩ := h
    have hunlink : m.tree.unlink m.workingDirectory p = .ok (m.tree.erase (n :: dir)) := by
      rw [hconfined.workingDirectory]
      exact hfree.unlink Content.empty hconfined.find
    rcases hr.unlink with ⟨-, t, ht, rfl⟩ | ⟨-, code, -, hcode | ⟨_, hfail⟩⟩
    · obtain rfl : m.tree.erase (n :: dir) = t := Except.ok.inj (hunlink.symm.trans ht)
      exact ⟨dir, n, hfree, hconfined.erase _⟩
    · exact absurd (hunlink.symm.trans hcode) (by simp)
    · exact absurd hfail id

/-- While the journal is open, the path names its file. -/
theorem inspectEntry (h : Ephemeral m₀ p (.opened d) m) :
    m.tree.inspectEntry m.workingDirectory p = .ok () := by
  obtain ⟨dir, n, hfree, hconfined⟩ := h
  have hunlink := hfree.unlink Content.empty hconfined.find
  rw [hconfined.workingDirectory]
  exact (FileTree.inspectEntry_of_unlink hunlink).1

/-- While the journal is not open, the tree holds what it held. -/
theorem alike (hfresh : m₀.tree.Fresh) (h : Ephemeral m₀ p x m) (hx : ∀ d, x ≠ .opened d) :
    m₀.tree.Alike m.tree ∧ m.workingDirectory = m₀.workingDirectory := by
  cases x with
  | unopened =>
    obtain rfl : m = m₀ := h
    exact ⟨.refl _, rfl⟩
  | opened d => exact absurd rfl (hx d)
  | unlinked d =>
    obtain ⟨dir, n, hfree, hconfined⟩ := h
    have halike := hfree.alike_erase hfresh Content.empty
    refine ⟨⟨fun l => (hconfined.find l).trans (halike.find l), fun l id hl => ?_⟩,
      hconfined.workingDirectory⟩
    have hne : id ≠ m₀.tree.nextFile := Nat.ne_of_lt (hfresh l id hl)
    exact (hconfined.content id hne).trans (halike.content l id hl)

/-- Once the name is gone, nothing can be opened at the path. -/
theorem openExisting (h : Ephemeral m₀ p (.unlinked d) m) (hfresh : m₀.tree.Fresh) :
    m.tree.openExisting m.workingDirectory p = .error Errno.noEntry := by
  obtain ⟨halike, hwd⟩ := h.alike hfresh (by simp)
  obtain ⟨dir, n, hfree, -⟩ := h
  unfold FileTree.openExisting
  rw [hwd, FileTree.resolve_congr halike.find, hfree.visit]

end Ephemeral

/-! ## Sessions -/

/-- The file was opened for writing at the path, and no call to unlink it was made yet. -/
def Posix.Held (p : Path) (past : List (Happening System Event)) : Prop :=
  (∃ synchronous direct d, .answered (.open_ p (.write synchronous direct)) (.ok d) ∈ past) ∧
    ∀ r, .answered (.unlink p) r ∉ past

namespace Session

variable {φ : Type}

/-- What the tree is like at every moment of a session with a journal at a path: `now` gives the
machine after a first part of all that happens. -/
structure Traceless (p : Path) (m₀ : Machine) (now : List (Happening System Event) → Machine)
    (records : List (Record System (Machine × φ))) : Prop where
  /-- The path names an entry while the file is held open. -/
  held : ∀ past, past <+: trace records → Posix.Held p past →
    (now past).tree.inspectEntry (now past).workingDirectory p = .ok ()
  /-- Before that and afterwards, the tree is what it was. -/
  free : ∀ past, past <+: trace records → ¬ Posix.Held p past →
    m₀.tree.Alike (now past).tree ∧ (now past).workingDirectory = m₀.workingDirectory
  /-- The file is held no longer than the journal lives. -/
  ends : ∀ r ∈ records, ∀ reply, .answered (.unlink p) reply ∈ r.history → r.ends = true
  released : ¬ Posix.Held p (trace records)
  /-- If there was a file, nothing is found at the path when it is opened afterwards. -/
  reopened : (∃ synchronous direct d,
      .answered (.open_ p (.write synchronous direct)) (.ok d) ∈ trace records) →
    ∀ {ψ : Type} (patience : Nat) (decide : Policy ψ) (s : ψ),
      (∀ s code, (decide (.open_ p .read) s).1 ≠ .fail code) →
      ((Posix.native patience (Journal.openForRead p)).run decide.handler
          (now (trace records), s)).value = .error (.opening p (.code Errno.noEntry)) ∧
        (JournalError.opening p (.code Errno.noEntry)).special = .notFound

/-- The phase of a session says whether the file is held. -/
theorem held_iff {p : Path} {support : DurabilitySupport} {past : List (Happening System Event)}
    {x : Phase} (h : Leads (Course.writer p .pureMemory support).Allows .unopened past x) :
    Posix.Held p past ↔ ∃ d, x = .opened d := by
  have hshows := Course.shows_of_leads h
  constructor
  · rintro ⟨⟨synchronous, direct, d, hopened⟩, hunlink⟩
    cases x with
    | unopened => exact absurd hopened (hshows.1 _ _ _)
    | opened d => exact ⟨d, rfl⟩
    | unlinked d =>
      obtain ⟨-, -, r, hr⟩ := hshows
      exact absurd hr (hunlink r)
  · rintro ⟨d, rfl⟩
    exact ⟨⟨_, _, d, hshows.1.2⟩, hshows.2 p⟩

/-- **An ephemeral journal leaves no trace.**  A session opens a journal in memory-only mode at a
path that names nothing, uses it in any way, and closes or drops it, on a machine that may fail any
call but an unlink.  The path names the file from the call that opens it until it is unlinked,
which ends the journal's life; before and afterwards the tree is what it was; and if there was a
file, it cannot be found any more. -/
theorem ephemeral_leaves_no_trace (patience : Nat) {decide : Policy φ}
    (hdecide : decide.Within UnlinkWorks) {m : Machine} (hfresh : m.tree.Fresh) (w : φ) {p : Path}
    (habsent : m.tree.inspectEntry m.workingDirectory p ≠ .ok ()) (size : UInt64)
    (support : DurabilitySupport) (accesses : List Access) (ending : Ending) :
    let ops := Course.operations (.openForWrite 0 p .pureMemory size support) accesses ending
    let platforms := fun _ => Posix.platform patience decide
    Traceless p m (fun past => (worldAfter decide.handler (m, w) past).1)
        (run platforms (start (m, w)) ops) ∧
      m.tree.Alike (final platforms (start (m, w)) ops).world.1.tree := by
  intro ops platforms
  obtain ⟨x, hbegins⟩ :=
    Course.exists_begins_openForWrite patience decide (m, w) p .pureMemory size support
  -- at each moment the session is in a phase, and the machine is as the phase says
  have hmoment : ∀ past, past <+: trace (run platforms (start (m, w)) ops) →
      ∃ y, Leads (Course.writer p .pureMemory support).Allows .unopened past y ∧
        Ephemeral m p y (worldAfter decide.handler (m, w) past).1 := by
    intro past hpast
    obtain ⟨y, hphase, hworld⟩ := Course.exists_phase_of_prefix hbegins hpast
    refine ⟨y, hphase, ?_⟩
    exact Course.invariant hdecide (fun _ _ _ _ _ _ h hallows hr => h.step habsent hallows hr)
      hphase hworld rfl
  obtain ⟨z, hend, -, hover⟩ := Course.exists_leads_run hbegins accesses ending
  have hfree : ¬ Posix.Held p (trace (run platforms (start (m, w)) ops)) := by
    intro hheld
    obtain ⟨d, hd⟩ := (held_iff hend).mp hheld
    exact hover rfl d hd
  have htraceless : Traceless p m (fun past => (worldAfter decide.handler (m, w) past).1)
      (run platforms (start (m, w)) ops) := by
    refine ⟨fun past hpast hheld => ?_, fun past hpast hheld => ?_, fun r hr reply hmem => ?_,
      hfree, fun hopened ψ patience' decide' s hfail => ⟨?_, rfl⟩⟩
    · obtain ⟨y, hphase, hmachine⟩ := hmoment past hpast
      obtain ⟨d, rfl⟩ := (held_iff hphase).mp hheld
      exact hmachine.inspectEntry
    · obtain ⟨y, hphase, hmachine⟩ := hmoment past hpast
      exact hmachine.alike hfresh fun d hd => hheld ((held_iff hphase).mpr ⟨d, hd⟩)
    · exact Course.unlinks_end hbegins hr hmem
    · obtain ⟨y, hphase, hmachine⟩ := hmoment _ List.prefix_rfl
      cases y with
      | unopened =>
        obtain ⟨synchronous, direct, d, hmem⟩ := hopened
        exact absurd hmem ((Course.shows_of_leads hphase).1 _ _ _)
      | opened d => exact absurd ((held_iff hphase).mpr ⟨d, rfl⟩) hfree
      | unlinked d =>
        exact Posix.openForRead_of_error (Course.shows_of_leads hphase).1.1
          (hmachine.openExisting hfresh) hfail
  have hfinal : worldAfter decide.handler (m, w) (trace (run platforms (start (m, w)) ops)) =
      (final platforms (start (m, w)) ops).world :=
    (leads_run (Posix.platform patience decide) (start (m, w)) ops).worldAfter_eq
  rw [← hfinal]
  exact ⟨htraceless, (htraceless.free _ List.prefix_rfl hfree).1⟩

/-- A system that can neither sync nor close without an error. -/
def unsteady : Policy Unit := fun c s =>
  match c with
  | .sync _ | .close _ => (.fail 5, s)
  | _ => (.proceed, s)

/-- The truncation and the close fail, and the journal leaves no trace all the same. -/
theorem ephemeral_leaves_no_trace_unsteady :
    let m := Machine.ofTree Probe.oneFile []
    let ops := Course.operations (.openForWrite 0 ⟨[106]⟩ .pureMemory 1 .supported)
      [.write [120] 0, .truncate 5] .close
    let platforms := fun _ => Posix.platform 0 unsteady
    (unsteady.Within UnlinkWorks ∧ m.tree.Fresh ∧
        m.tree.inspectEntry m.workingDirectory ⟨[106]⟩ ≠ .ok ()) ∧
      (run platforms (start (m, ())) ops).map (·.answer) =
        [some (.ok (.number 1)), some (.ok .done), some (.error (.error (.sync (.code 5)))),
          some (.error (.error (.close (.code 5))))] ∧
      Traceless ⟨[106]⟩ m (fun past => (worldAfter unsteady.handler (m, ()) past).1)
        (run platforms (start (m, ())) ops) ∧
      m.tree.Alike (final platforms (start (m, ())) ops).world.1.tree := by
  have hworks : unsteady.Within UnlinkWorks := by
    intro c s
    cases c <;> exact trivial
  have hfresh : Probe.oneFile.Fresh := FileTree.fresh_empty.makeFile _ _ _
  have habsent : Probe.oneFile.inspectEntry [] ⟨[106]⟩ ≠ .ok () := by decide
  have hrun := ephemeral_leaves_no_trace 0 hworks (m := .ofTree Probe.oneFile []) hfresh () habsent
    1 .supported [.write [120] 0, .truncate 5] .close
  refine ⟨⟨hworks, hfresh, habsent⟩, ?_, hrun⟩
  with_unfolding_all rfl

end Session

end WriteAhead
