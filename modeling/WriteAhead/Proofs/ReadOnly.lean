/-
# A journal open for reading changes nothing

What is open for reading cannot be written, extended or cut through its descriptor, whatever sizes
are asked for and whether or not the file system can reserve space.  A session with a journal that
was opened for reading therefore leaves the tree as it is at every moment, and its writes and
truncations fail.

* `Posix.ends_write_of_unwritable`, `Posix.ends_truncate_of_unwritable` : how they fail;
* `Session.reader_changes_nothing` : a session with a journal that was opened for reading.
-/
import WriteAhead.Proofs.Benign
import WriteAhead.Proofs.Course

namespace WriteAhead

open Program

/-! ## Calls on what cannot be written -/

namespace Machine

variable {P : SystemCall → Verdict → Prop} {m m' : Machine} {d : Descriptor}

/-- The descriptor is not open for writing. -/
def Unwritable (m : Machine) (d : Descriptor) : Prop :=
  ∀ id, m.opened d.number ≠ some ⟨true, .file id⟩

variable (hm : m.Unwritable d)

include hm

theorem Unwritable.writeAt {bytes : Bytes} {offset : UInt64} {r : Except Int Nat}
    (h : m.Answers P (.writeAt d bytes offset) r m') : ∃ code, r = .error code := by
  cases r with
  | error code => exact ⟨code, rfl⟩
  | ok n =>
    obtain ⟨id, c, hopen, -⟩ := h.writeAt_ok
    exact absurd hopen (hm id)

theorem Unwritable.setLength {n : UInt64} {r : Except Int Unit}
    (h : m.Answers P (.setLength d n) r m') : ∃ code, r = .error code := by
  cases r with
  | error code => exact ⟨code, rfl⟩
  | ok u =>
    obtain ⟨id, hopen, -⟩ := h.setLength_ok
    exact absurd hopen (hm id)

theorem Unwritable.allocate {n : UInt64} {r : Except Int Unit}
    (h : m.Answers P (.allocate d n) r m') : (∃ code, r = .error code) ∧ m' = m := by
  cases r with
  | error code => exact ⟨⟨code, rfl⟩, h.of_error (by simp)⟩
  | ok u =>
    obtain ⟨id, k, hopen, -, -⟩ := h.allocate_ok
    exact absurd hopen (hm id)

end Machine

/-! ## Steps on what cannot be written -/

namespace Posix

variable {P : SystemCall → Verdict → Prop} {m m' : Machine}
  {history : List (Happening System Event)} {d : Descriptor} {patience : Nat} {size : UInt64}

theorem ends_pin_of_unwritable (hm : m.Unwritable d) {r : Except JournalError Unit}
    (h : CanEnd P ((resizer patience d).pin size) m r m' history) :
    ∃ e, r = .error (.resize size e) := by
  unfold Resizer.pin at h
  obtain ⟨a, m₁, xs, ys, ha, hr, -⟩ := ends_bind.mp h
  have hfails : ∃ e, a = .error e := by
    have ha' : CanEnd P (setLength patience d size) m a m₁ xs := ha
    unfold setLength at ha'
    split at ha'
    · exact ⟨_, ha'.1⟩
    · obtain ⟨reply, m₂, us, vs, hreply, ⟨rfl, -, -⟩, -⟩ := ends_bind.mp ha'
      obtain ⟨hanswer, -⟩ := answers_of_persist (by simp) hreply
      obtain ⟨code, rfl⟩ := hm.setLength hanswer
      exact ⟨_, rfl⟩
  obtain ⟨e, rfl⟩ := hfails
  exact ⟨e, hr.1⟩

/-- A resize to any size fails, also where a file system that cannot reserve space is forgiven. -/
theorem ends_resize_of_unwritable (hm : m.Unwritable d) {r : Except JournalError Unit}
    (h : CanEnd P ((resizer patience d).resize size) m r m' history) :
    ∃ e, r = .error (.resize size e) := by
  unfold Resizer.resize at h
  obtain ⟨a, m₁, xs, ys, ha, hr, -⟩ := ends_bind.mp h
  obtain ⟨reply, hreply, rfl, -⟩ := canEnd_once.mp ha
  obtain rfl := hreply.of_isQuery rfl
  cases reply with
  | error code => exact ⟨_, hr.1⟩
  | ok current =>
    simp only [ofSystem] at hr
    split at hr
    · -- the file would have to grow, but nothing can be reserved for it
      unfold Resizer.growTo at hr
      obtain ⟨b, m₂, us, vs, hb, hgrow, -⟩ := ends_bind.mp hr
      obtain ⟨reserved, hreserved, rfl, -⟩ := canEnd_once.mp hb
      obtain ⟨⟨code, rfl⟩, rfl⟩ := hm.allocate hreserved
      by_cases hunsupported : SystemError.isUnsupported (.code code) = true
      · simp only [ofSystem, resizer, hunsupported, if_true] at hgrow
        obtain ⟨_, _, _, _, ⟨_, ⟨rfl, rfl, rfl⟩, rfl⟩, hpin, -⟩ := ends_bind.mp hgrow
        exact ends_pin_of_unwritable hm hpin
      · simp only [ofSystem, resizer, hunsupported] at hgrow
        exact ⟨_, hgrow.1⟩
    · exact ends_pin_of_unwritable hm hr

/-- A flush changes nothing, whatever the descriptor is open for. -/
theorem ends_flush_of_any {r : Except JournalError Unit}
    (h : CanEnd P (serve patience (.flush d)) m r m' history) :
    m' = m ∧ (r = .ok () ∨ ∃ e, r = .error (.sync e)) := by
  obtain ⟨a, m₁, xs, ys, ha, hr, -⟩ := ends_bind.mp h
  obtain ⟨reply, m₂, us, vs, hreply, ⟨rfl, rfl, -⟩, -⟩ := ends_bind.mp ha
  obtain ⟨hanswer, -⟩ := answers_of_persist (by simp) hreply
  obtain rfl := hanswer.of_isQuery rfl
  cases reply with
  | error code => exact ⟨hr.2.1, .inr ⟨_, hr.1⟩⟩
  | ok u => exact ⟨hr.2.1, .inl hr.1⟩

/-! ## Operations on what cannot be written -/

variable {j : Handle} (hd : j.descriptor = some d) (hm : m.Unwritable d)

include hd hm

/-- A write of anything fails with the first call. -/
theorem ends_write_of_unwritable {bytes : Bytes} (hbytes : bytes ≠ []) {offset : UInt64}
    {r : Outcome Unit} (h : CanEnd P (native patience (j.write bytes offset)) m r m' history) :
    ∃ e, r = .error (.error (.write offset bytes.length e)) := by
  have hposition : addWords? offset.toNat 0 = .ok offset.toNat := by
    unfold addWords? wordLimit
    rw [if_pos (show offset.toNat + 0 < _ from offset.toNat_lt), Nat.add_zero]
  unfold Handle.write Handle.withFile at h
  rw [hd] at h
  unfold Handle.writeRest at h
  simp only [if_neg hbytes, hposition, native_ask] at h
  obtain ⟨a, m₁, xs, ys, ha, hr, -⟩ := ends_bind.mp h
  obtain ⟨reply, hreply, rfl, -⟩ := canEnd_once.mp ha
  obtain ⟨code, rfl⟩ := hm.writeAt hreply
  exact ⟨_, hr.1⟩

/-- A truncation fails to any size, with what the flush before it or the resize fails with. -/
theorem ends_truncate_of_unwritable {r : Outcome Unit}
    (h : CanEnd P (native patience (j.truncate size)) m r m' history) :
    ∃ e, r = .error (.error (.sync e)) ∨ r = .error (.error (.resize size e)) := by
  unfold Handle.truncate Handle.withFile at h
  rw [hd] at h
  simp only [native_bind] at h
  obtain ⟨a, m₁, xs, ys, ha, hr, -⟩ := ends_bind.mp h
  have hfails : ∃ e, a = .error (.sync e) ∨ a = .error (.resize size e) := by
    unfold Handle.truncateFile at ha
    rw [native_bind, native_take] at ha
    obtain ⟨flushed, m₂, us, vs, hflushed, hrest, -⟩ := ends_bind.mp ha
    obtain ⟨rfl, rfl | ⟨e, rfl⟩⟩ := ends_flush_of_any hflushed
    · simp only at hrest
      rw [native_bind, native_take] at hrest
      obtain ⟨resized, m₃, ws, zs, hresized, hlast, -⟩ := ends_bind.mp hrest
      obtain ⟨e, rfl⟩ := ends_resize_of_unwritable hm hresized
      exact ⟨e, .inr hlast.1⟩
    · exact ⟨e, .inl hrest.1⟩
  obtain ⟨e, rfl | rfl⟩ := hfails
  · exact ⟨e, .inl hr.1⟩
  · exact ⟨e, .inr hr.1⟩

end Posix

/-! ## Calls on one descriptor -/

/-- The call works on the descriptor `d`. -/
def SystemCall.On (d : Descriptor) : SystemCall → Prop
  | .close d' | .sync d' | .setLength d' _ | .allocate d' _ | .length d' | .fileSystem d'
  | .writeAt d' _ _ | .readAt d' _ _ => d' = d
  | .open_ _ _ | .unlink _ | .inspect _ => False

/-- A truncation of a journal without a path makes calls on its descriptor only; there is no
directory to be synced. -/
theorem Posix.asks_truncate_of_pathless {j : Handle} {d : Descriptor} (hd : j.descriptor = some d)
    (hpath : j.path = none) (size : UInt64) (patience : Nat) :
    (native patience (j.truncate size)).Asks (SystemCall.On d) := by
  have hsteps : (j.truncate size).Asks fun s : Step => s = .flush d ∨ s = .resize d size := by
    refine j.asks_truncate_of hd size (.inl rfl) (.inr rfl) fun p hp => ?_
    exact absurd (hpath.symm.trans hp) (by simp)
  refine hsteps.through fun s hs => ?_
  rcases hs with rfl | rfl
  · refine (asks_sync (Q := SystemCall.On d) rfl patience).bind fun r => ?_
    rcases r with e | u <;> trivial
  · exact asks_resize (Q := SystemCall.On d) rfl rfl rfl patience

/-! ## The machine of a reader -/

/-- What the machine is like in each phase of a journal that is open for reading: the tree is what
it was, and nothing is open for writing as the journal's descriptor. -/
def Untouched (m₀ : Machine) : Phase → Machine → Prop
  | .unopened, m => m = m₀
  | .opened d, m => m.Confined (fun _ => False) d m₀.tree m₀.workingDirectory
  | .unlinked _, _ => False

namespace Untouched

variable {m₀ m m' : Machine} {p : Path} {x y : Phase} {c : SystemCall}

/-- What the calls of each phase preserve, whatever fails. -/
theorem step (h : Untouched m₀ x m) {P : SystemCall → Verdict → Prop} {r : c.Reply}
    (hphase : (Course.reader p).Allows x c r y) (hr : m.Answers P c r m') : Untouched m₀ y m' := by
  cases hphase with
  | refused code =>
    rw [hr.of_error (by simp)]
    exact h
  | opened d _ =>
    obtain rfl : m = m₀ := h
    rcases hr.openRead with ⟨target, -, hd, rfl⟩ | ⟨-, ⟨code, hd⟩, -⟩
    · obtain rfl := Except.ok.inj hd
      exact Machine.Confined.openTarget fun id hid => absurd hid (by simp)
    · exact absurd hd (by simp)
  | through r hd hc =>
    cases x with
    | unopened => exact absurd hd (by simp [Phase.descriptor?])
    | opened d' =>
      obtain rfl := Option.some.inj hd
      exact Machine.Confined.answers h hc hr
    | unlinked d' => exact absurd h id
  | unlinked d r hephemeral => exact absurd hephemeral (by simp [Course.reader])

/-- Where the calls of a reader's phases lead, whatever fails, the machine is as its phase says. -/
theorem of_leads {φ : Type} {decide : Policy φ} {w : φ} {v : Machine × φ}
    {past : List (Happening System Event)}
    (hphase : Leads (Course.reader p).Allows .unopened past y)
    (hworld : Leads decide.handler.answering (m, w) past v) : Untouched m y v.1 := by
  have hwithin : decide.Within fun _ _ => True := fun _ _ => trivial
  exact Course.invariant hwithin (fun _ _ _ _ _ _ h hallows hr => h.step hallows hr)
    hphase hworld rfl

theorem tree_eq (h : Untouched m₀ x m) : m.tree = m₀.tree := by
  cases x with
  | unopened =>
    obtain rfl : m = m₀ := h
    rfl
  | opened d => exact Machine.Confined.tree_eq h
  | unlinked d => exact absurd h id

end Untouched

/-! ## Sessions -/

namespace Session

variable {φ : Type} {s : Session (Machine × φ)} {patience : Nat} {decide : Policy φ} {p : Path}
  {d : Descriptor}

/-- A write of anything and a truncation to any size fail, and the truncation calls for nothing but
the descriptor `d`. -/
def Record.Refuses (d : Descriptor) (r : Record System (Machine × φ)) : Prop :=
  match r.operation with
  | .write _ bytes offset =>
    bytes ≠ [] → ∃ e, r.answer = some (.error (.error (.write offset bytes.length e)))
  | .truncate _ size =>
    (∃ e, r.answer = some (.error (.error (.sync e))) ∨
      r.answer = some (.error (.error (.resize size e)))) ∧
      ∀ c ∈ requestsOf r.history, c.On d
  | _ => True

/-- What is not open for writing refuses every access that would write. -/
theorem refuses_access (hs : s.journals = [some ⟨0, (Course.reader p).handle d⟩])
    (hm : s.world.1.Unwritable d) (a : Access) :
    (s.step (fun _ => Posix.platform patience decide) a.operation).Refuses d := by
  have hwithin : decide.Within fun _ _ => True := fun _ _ => trivial
  unfold Record.Refuses
  rw [operation_step]
  cases a with
  | write bytes offset =>
    intro hbytes
    obtain ⟨e, he⟩ := Posix.ends_write_of_unwritable rfl hm hbytes
      (Posix.canEnd_run hwithin (Posix.native patience
        (((Course.reader p).handle d).write bytes offset)) s.world)
    refine ⟨e, ?_⟩
    simp only [Access.operation, step, used, Course.live?_of_some hs, Posix.run_platform, he]
    rfl
  | truncate n =>
    obtain ⟨e, he⟩ := Posix.ends_truncate_of_unwritable rfl hm
      (Posix.canEnd_run hwithin (Posix.native patience
        (((Course.reader p).handle d).truncate n)) s.world)
    simp only [Access.operation, step, used, Course.live?_of_some hs, Posix.run_platform]
    refine ⟨⟨e, he.imp (fun he => ?_) fun he => ?_⟩, ?_⟩
    · rw [he]
      rfl
    · rw [he]
      rfl
    · exact (Posix.asks_truncate_of_pathless rfl rfl n patience).requests decide.handler s.world
  | read | size => trivial

variable {m : Machine} {w : φ}

/-- What a session records of a journal that it has opened for reading. -/
theorem refuses_of_mem_run
    (h : (Course.reader p).Begins ((start (m, w)).step (fun _ => Posix.platform patience decide)
      (.openForRead 0 p)) (.opened d))
    (hlive : ((start (m, w)).step (fun _ => Posix.platform patience decide)
      (.openForRead 0 p)).after.journals = [some ⟨0, (Course.reader p).handle d⟩])
    {accesses : List Access} {ending : Ending} {r : Record System (Machine × φ)}
    (hr : r ∈ run (fun _ => Posix.platform patience decide) (start (m, w))
      (Course.operations (.openForRead 0 p) accesses ending)) : r.Refuses d := by
  rcases Course.mem_run_cases h hr with rfl | ⟨s, a, ⟨hreached, hjournals⟩, rfl⟩ | ⟨s, -, rfl⟩
  · unfold Record.Refuses
    rw [operation_step]
    trivial
  · obtain ⟨past, hphase, hworld⟩ := hreached.calls
    have hmachine : Untouched m (.opened d) s.world.1 := .of_leads hphase hworld
    exact refuses_access (hjournals.trans hlive) (Machine.Confined.not_writable hmachine) a
  · unfold Record.Refuses
    rw [operation_step]
    cases ending <;> trivial

/-- Where an opening for reading ends the journal's life, it has failed. -/
theorem exists_failed_of_ends {r : Record System (Machine × φ)}
    (hop : r.operation = .openForRead 0 p) (h : r.ends = true) :
    ∃ f, r.answer = some (.error f) := by
  unfold Record.ends at h
  rw [hop] at h
  obtain ⟨a, ha, hfails⟩ := (Option.any_eq_true _ _).mp h
  rcases a with f | a
  · exact ⟨f, ha⟩
  · exact absurd hfails (by simp [Except.isOk, Except.toBool])

/-- **A journal that is open for reading changes nothing.**  A session opens a journal for reading,
uses it in any way, and closes or drops it, on a machine that may fail any call.  At every moment
the tree is what it was, and nothing is ever unlinked.  Either the journal could not be opened, or
all that was written to it failed, and so did every truncation, which did not sync any directory. -/
theorem reader_changes_nothing (patience : Nat) (decide : Policy φ) (m : Machine) (w : φ)
    (p : Path) (accesses : List Access) (ending : Ending) :
    let ops := Course.operations (.openForRead 0 p) accesses ending
    let platforms := fun _ => Posix.platform patience decide
    let first := (start (m, w)).step platforms (.openForRead 0 p)
    let records := run platforms (start (m, w)) ops
    (∀ past, past <+: trace records →
        (worldAfter decide.handler (m, w) past).1.tree = m.tree) ∧
      (final platforms (start (m, w)) ops).world.1.tree = m.tree ∧
      (∀ q r, .answered (.unlink q) r ∉ trace records) ∧
      ((∃ f, first.answer = some (.error f)) ∨
        ∃ d, .answered (.open_ p .read) (.ok d) ∈ first.history ∧ ∀ r ∈ records, r.Refuses d) := by
  intro ops platforms first records
  obtain ⟨x, hbegins⟩ := Course.exists_begins_openForRead patience decide (m, w) p
  have hmoment : ∀ past, past <+: trace records →
      (worldAfter decide.handler (m, w) past).1.tree = m.tree := by
    intro past hpast
    obtain ⟨y, hphase, hworld⟩ := Course.exists_phase_of_prefix hbegins hpast
    exact (Untouched.of_leads hphase hworld).tree_eq
  have hfinal : worldAfter decide.handler (m, w) (trace records) =
      (final platforms (start (m, w)) ops).world :=
    (leads_run (Posix.platform patience decide) (start (m, w)) ops).worldAfter_eq
  refine ⟨hmoment, ?_, ?_, ?_⟩
  · rw [← hfinal]
    exact hmoment _ List.prefix_rfl
  · obtain ⟨y, hend, -⟩ := Course.exists_leads_run hbegins accesses ending
    exact (Course.shows_of_leads hend).not_unlinked rfl
  · cases hbegins.stands with
    | @live d hs hzero =>
      have hopened := (Course.shows_of_leads hbegins.leads).1.2
      exact .inr ⟨d, hopened, fun r hr => refuses_of_mem_run hbegins hs hr⟩
    | gone h => exact .inl (exists_failed_of_ends (operation_step _ _ _) (hbegins.ends h.1))

/-- A system that cannot reserve space. -/
def unreserving : Policy Unit := fun c s =>
  match c with
  | .allocate _ _ => (.fail Errno.notSupported, s)
  | _ => (.proceed, s)

/-- A file of three bytes stays as it is, also when the truncation is not stopped by a reservation
that fails. -/
theorem reader_changes_nothing_unreserving :
    let m := Machine.ofTree (FileTree.empty.makeFile [[116]] (Content.ofBytes [1, 2, 3])).1 []
    let ops := Course.operations (.openForRead 0 ⟨[116]⟩)
      [.write [120] 0, .truncate 5, .truncate 0, .size] .close
    let platforms := fun _ => Posix.platform 0 unreserving
    (run platforms (start (m, ())) ops).map (·.answer) =
        [some (.ok .done), some (.error (.error (.write 0 1 (.code 9)))),
          some (.error (.error (.resize 5 (.code 22)))),
          some (.error (.error (.resize 0 (.code 22)))), some (.ok (.number 3)),
          some (.ok .done)] ∧
      (final platforms (start (m, ())) ops).world.1.tree = m.tree :=
  ⟨by with_unfolding_all rfl,
    (reader_changes_nothing 0 unreserving _ () ⟨[116]⟩
      [.write [120] 0, .truncate 5, .truncate 0, .size] .close).2.1⟩

end Session

end WriteAhead
