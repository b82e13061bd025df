/-
# The course of one journal

A session that opens one journal, uses it, and closes or drops it makes its system calls in an
order that the replies cannot change: calls that open the path, until one succeeds; calls through
the descriptor that it gave; for an ephemeral journal one call that unlinks the path; and then
calls through the descriptor again.

* `Course.exists_leads_run` : the calls of such a session go through the phases in that order;
* `Course.unlinks_end` : only what ends the journal's life unlinks anything.
-/
import WriteAhead.Proofs.Confinement
import WriteAhead.Proofs.Moments
import WriteAhead.Proofs.Steps
import Mathlib.Data.List.Induction

namespace WriteAhead

open Program

/-! ## Phases -/

/-- How far the only journal of a session has come, by the calls that were answered. -/
inductive Phase where
  | unopened
  | opened (d : Descriptor)
  | unlinked (d : Descriptor)

/-- The descriptor that the journal's file was opened as. -/
def Phase.descriptor? : Phase → Option Descriptor
  | unopened => none
  | opened d | unlinked d => some d

/-- What a session sets out to do with its only journal. -/
structure Course where
  path : Path
  /-- How the system opens the file. -/
  mode : OpenMode
  /-- The path that the handle on the open file keeps. -/
  kept : Option Path
  /-- The path is unlinked in the end. -/
  ephemeral : Bool
  kept_of_ephemeral : ephemeral = true → kept = some path

namespace Course

/-- Opening for writing. -/
def writer (path : Path) (mode : JournalMode) (support : DurabilitySupport) : Course where
  path := path
  mode := .write (OpenFlags.forJournal mode support).synchronous
    (OpenFlags.forJournal mode support).unbuffered
  kept := some path
  ephemeral := (OpenFlags.forJournal mode support).deleteOnClose
  kept_of_ephemeral := fun _ => rfl

/-- Opening for reading. -/
def reader (path : Path) : Course where
  path := path
  mode := .read
  kept := none
  ephemeral := false
  kept_of_ephemeral := nofun

/-- The handle on the open file. -/
def handle (o : Course) (d : Descriptor) : Handle :=
  ⟨some d, o.kept, o.ephemeral⟩

theorem unlinkPath?_handle (o : Course) (d : Descriptor) :
    (o.handle d).unlinkPath? Features.posix = if o.ephemeral then some o.path else none := by
  unfold Handle.unlinkPath? handle
  cases hephemeral : o.ephemeral with
  | false => rfl
  | true => exact o.kept_of_ephemeral hephemeral

/-- The calls that can be made in a phase, and the phase that their replies lead to. -/
inductive Allows (o : Course) : Phase → (c : SystemCall) → c.Reply → Phase → Prop where
  /-- The path could not be opened. -/
  | refused (code : Int) : Allows o .unopened (.open_ o.path o.mode) (.error code) .unopened
  /-- The path was opened. -/
  | opened (d : Descriptor) (hzero : o.path.hasZeroByte = false) :
      Allows o .unopened (.open_ o.path o.mode) (.ok d) (.opened d)
  /-- The journal is used, or closed. -/
  | through {x : Phase} {d : Descriptor} {c : SystemCall} (r : c.Reply)
      (hx : x.descriptor? = some d) (hc : c.Through d) : Allows o x c r x
  /-- The path of an ephemeral journal is unlinked. -/
  | unlinked (d : Descriptor) (r : Except Int Unit) (h : o.ephemeral = true) :
      Allows o (.opened d) (.unlink o.path) r (.unlinked d)

/-- The phase of a journal that was open as `d`, after its release. -/
def released (o : Course) (d : Descriptor) : Phase :=
  if o.ephemeral then .unlinked d else .opened d

theorem descriptor?_released (o : Course) (d : Descriptor) :
    (o.released d).descriptor? = some d := by
  unfold released
  split <;> rfl

/-! ## What a phase says about the calls before it -/

/-- What was answered by the time that a session is in a phase. -/
def Shows (o : Course) (history : List (Happening System Event)) : Phase → Prop
  | .unopened =>
    (∀ p mode d, .answered (.open_ p mode) (.ok d) ∉ history) ∧
      ∀ p r, .answered (.unlink p) r ∉ history
  | .opened d =>
    (o.path.hasZeroByte = false ∧ .answered (.open_ o.path o.mode) (.ok d) ∈ history) ∧
      ∀ p r, .answered (.unlink p) r ∉ history
  | .unlinked d =>
    (o.path.hasZeroByte = false ∧ .answered (.open_ o.path o.mode) (.ok d) ∈ history) ∧
      o.ephemeral = true ∧ ∃ r, .answered (.unlink o.path) r ∈ history

/-- Only the path of an ephemeral journal is unlinked. -/
theorem Shows.not_unlinked {o : Course} {history : List (Happening System Event)} {x : Phase}
    (h : o.Shows history x) (hnot : o.ephemeral = false) :
    ∀ p r, .answered (.unlink p) r ∉ history := by
  cases x with
  | unopened => exact h.2
  | opened d => exact h.2
  | unlinked d => exact absurd h.2.1 (by simp [hnot])

theorem Shows.append {o : Course} {history : List (Happening System Event)} {x : Phase}
    (h : o.Shows history x) {e : Happening System Event}
    (hopen : x = .unopened → ∀ p mode d, e ≠ .answered (.open_ p mode) (.ok d))
    (hunlink : ∀ p r, e ≠ .answered (.unlink p) r) : o.Shows (history ++ [e]) x := by
  have hnone : (∀ p r, .answered (.unlink p) r ∉ history) →
      ∀ p r, .answered (.unlink p) r ∉ history ++ [e] := by
    intro hnot p r hmem
    rcases List.mem_append.mp hmem with hmem | hmem
    · exact hnot p r hmem
    · exact hunlink p r (List.mem_singleton.mp hmem).symm
  cases x with
  | unopened =>
    refine ⟨fun p mode d hmem => ?_, hnone h.2⟩
    rcases List.mem_append.mp hmem with hmem | hmem
    · exact h.1 p mode d hmem
    · exact hopen rfl p mode d (List.mem_singleton.mp hmem).symm
  | opened d => exact ⟨⟨h.1.1, List.mem_append_left _ h.1.2⟩, hnone h.2⟩
  | unlinked d =>
    obtain ⟨⟨hzero, hopened⟩, hephemeral, r, hr⟩ := h
    exact ⟨⟨hzero, List.mem_append_left _ hopened⟩, hephemeral, r, List.mem_append_left _ hr⟩

/-- The calls of a session show what phase it is in. -/
theorem shows_of_leads {o : Course} {history : List (Happening System Event)} {x : Phase}
    (h : Leads o.Allows .unopened history x) : o.Shows history x := by
  induction history using List.reverseRecOn generalizing x with
  | nil =>
    obtain rfl : x = .unopened := h
    exact ⟨by simp, by simp⟩
  | append_singleton history e ih =>
    obtain ⟨y, hy, hlast⟩ := leads_append.mp h
    have hshows := ih hy
    cases e with
    | noted e =>
      obtain rfl : x = y := hlast
      exact hshows.append (by simp) (by simp)
    | answered c r =>
      obtain ⟨z, hz, hxz⟩ := hlast
      obtain rfl : x = z := hxz
      cases hz with
      | refused code => exact hshows.append (by simp) (by simp)
      | opened d hzero =>
        refine ⟨⟨hzero, List.mem_append_right _ (List.mem_singleton.mpr rfl)⟩, fun p r hmem => ?_⟩
        rcases List.mem_append.mp hmem with hmem | hmem
        · exact hshows.2 p r hmem
        · exact absurd (List.mem_singleton.mp hmem) (by simp)
      | through _ hd hc =>
        refine hshows.append ?_ ?_
        · rintro rfl
          exact absurd hd (by simp [Phase.descriptor?])
        · intro p r' heq
          cases heq
          exact hc
      | unlinked d r hephemeral =>
        exact ⟨⟨hshows.1.1, List.mem_append_left _ hshows.1.2⟩, hephemeral, r,
          List.mem_append_right _ (List.mem_singleton.mpr rfl)⟩

/-! ## What the programs of a journal call -/

section Programs

variable {α : Type} (o : Course) (patience : Nat)

theorem follows_persist (hzero : o.path.hasZeroByte = false) :
    (Posix.persist (.open_ o.path o.mode) patience).Follows o.Allows .unopened
      fun (r : Except Int Descriptor) x =>
        (∃ code, r = .error code) ∧ x = .unopened ∨ ∃ d, r = .ok d ∧ x = .opened d := by
  have hanswer : ∀ r : Except Int Descriptor, ∃ x, o.Allows .unopened (.open_ o.path o.mode) r x ∧
      ((∃ code, r = .error code) ∧ x = .unopened ∨ ∃ d, r = .ok d ∧ x = .opened d) := by
    intro r
    rcases r with code | d
    · exact ⟨_, .refused code, .inl ⟨⟨code, rfl⟩, rfl⟩⟩
    · exact ⟨_, .opened d hzero, .inr ⟨d, rfl, rfl⟩⟩
  induction patience with
  | zero => exact hanswer
  | succ patience ih =>
    intro r
    rcases r with code | d
    · refine ⟨.unopened, .refused code, ?_⟩
      show Follows (I := System) o.Allows (if code = Errno.interrupted then _ else _) _ _
      split
      · exact ih
      · exact .inl ⟨⟨code, rfl⟩, rfl⟩
    · exact ⟨.opened d, .opened d hzero, .inr ⟨d, rfl, rfl⟩⟩

/-- Opening the path ends with it open, or as if nothing was called. -/
theorem follows_openPath :
    (Posix.openPath patience o.path o.mode).Follows o.Allows .unopened fun r x =>
      (∃ e, r = .error e) ∧ x = .unopened ∨
        ∃ d, r = .ok d ∧ x = .opened d ∧ o.path.hasZeroByte = false := by
  unfold Posix.openPath
  split
  · exact .inl ⟨⟨_, rfl⟩, rfl⟩
  · next hzero =>
    have hzero : o.path.hasZeroByte = false := by simpa using hzero
    refine (o.follows_persist patience hzero).bind fun r x hr => ?_
    rcases hr with ⟨⟨code, rfl⟩, rfl⟩ | ⟨d, rfl, rfl⟩
    · exact .inl ⟨⟨_, rfl⟩, rfl⟩
    · exact .inr ⟨d, rfl, rfl, hzero⟩

variable {o patience} {d : Descriptor}

variable (patience) in
/-- Using the open journal keeps it open. -/
theorem follows_of_uses {p : StepProgram α} (hp : p.Asks (Step.Uses d)) {x : Phase}
    (hx : x.descriptor? = some d) :
    (Posix.native patience p).Follows o.Allows x fun _ y => y = x :=
  .of_asks (Posix.asks_native_of_uses hp patience) fun _ r hc => .through r hx hc

theorem follows_unlinkIfAny (hzero : o.path.hasZeroByte = false) :
    (Posix.native patience (Handle.unlinkIfAny (if o.ephemeral then some o.path else none))).Follows
      o.Allows (.opened d) fun _ y => y = o.released d := by
  unfold released
  cases hephemeral : o.ephemeral with
  | false => exact rfl
  | true =>
    rw [if_pos rfl, Handle.unlinkIfAny, Posix.native_bind, Posix.native_take]
    have hunlink : (Posix.serve patience (.unlink o.path)).Follows o.Allows (.opened d)
        fun _ y => y = .unlinked d := by
      show (Posix.unlink o.path).Follows _ _ _
      unfold Posix.unlink
      rw [hzero]
      exact fun r => ⟨.unlinked d, .unlinked d r hephemeral, rfl⟩
    refine hunlink.bind fun r y hy => ?_
    rcases r with e | u <;> exact hy

theorem asks_closeAfter (d : Descriptor) (unlinked : Except JournalError Unit) :
    (Posix.native patience (Handle.closeAfter d unlinked)).Asks (SystemCall.Through d) := by
  unfold Handle.closeAfter
  rw [Posix.native_bind, Posix.native_take]
  refine (Posix.asks_once trivial).bind fun r => ?_
  rcases r with e | u
  · rcases unlinked with first | u <;> trivial
  · trivial

/-- A release unlinks the path of an ephemeral journal. -/
theorem follows_release (hzero : o.path.hasZeroByte = false) :
    (Posix.native patience ((o.handle d).release Features.posix)).Follows o.Allows (.opened d)
      fun _ y => y = o.released d := by
  rw [Handle.release_of_descriptor_eq_some _ (o.handle d) rfl, o.unlinkPath?_handle d,
    Posix.native_bind]
  refine (follows_unlinkIfAny hzero).bind ?_
  rintro unlinked _ rfl
  rw [Posix.native_bind]
  have hclose : (Posix.native patience (Handle.closeAfter d unlinked)).Follows o.Allows
      (o.released d) fun _ y => y = o.released d :=
    .of_asks (asks_closeAfter d unlinked) fun _ r hc => .through r (o.descriptor?_released d) hc
  exact hclose.bind fun _ _ hy => hy

theorem follows_close (hzero : o.path.hasZeroByte = false) :
    (Posix.native patience ((o.handle d).close Features.posix)).Follows o.Allows (.opened d)
      fun _ y => y = o.released d := by
  rw [Handle.close_eq, Posix.native_bind]
  exact (follows_release hzero).bind fun _ _ hy => hy

theorem follows_drop (hzero : o.path.hasZeroByte = false) :
    (Posix.native patience ((o.handle d).drop Features.posix)).Follows o.Allows (.opened d)
      fun _ y => y = o.released d := by
  unfold Handle.drop
  rw [Posix.native_bind]
  refine (follows_release hzero).bind fun r y hy => ?_
  obtain ⟨result, h'⟩ := r
  rcases result with e | u <;> exact hy

theorem follows_abort (hzero : o.path.hasZeroByte = false) (cause : JournalError) :
    (Posix.native patience ((o.handle d).abort Features.posix cause)).Follows o.Allows (.opened d)
      fun _ y => y = o.released d := by
  rw [Handle.abort_eq, Posix.native_bind]
  refine (follows_release hzero).bind fun r y hy => ?_
  obtain ⟨result, h'⟩ := r
  rcases result with e | u
  · cases e <;> exact hy
  · exact hy

/-- How an opening can end: with nothing open any more, or with the journal given out. -/
def Opens (o : Course) (r : Outcome (Handle × Nat)) (x : Phase) : Prop :=
  ((∃ f, r = .error f) ∧ (o.ephemeral = true → ∀ d, x ≠ .opened d)) ∨
    ∃ d n, r = .ok (o.handle d, n) ∧ x = .opened d ∧ o.path.hasZeroByte = false

theorem not_opened_released (o : Course) (d : Descriptor) (h : o.ephemeral = true)
    (d' : Descriptor) : o.released d ≠ .opened d' := by
  unfold released
  rw [if_pos h]
  simp

theorem follows_openForWrite (patience : Nat) (p : Path) (mode : JournalMode) (size : UInt64)
    (support : DurabilitySupport) :
    (Posix.native patience (Journal.openForWrite Features.posix p mode size support)).Follows
      (writer p mode support).Allows .unopened (writer p mode support).Opens := by
  unfold Journal.openForWrite
  split
  · exact .inl ⟨⟨_, rfl⟩, by simp⟩
  rw [Posix.native_bind, Posix.native_take]
  refine ((writer p mode support).follows_openPath patience).bind fun r x hr => ?_
  rcases hr with ⟨⟨e, rfl⟩, rfl⟩ | ⟨d, rfl, rfl, hzero⟩
  · exact .inl ⟨⟨_, rfl⟩, by simp⟩
  · have hprepare := follows_of_uses (o := writer p mode support) patience
      (Journal.asks_prepare (OpenFlags.forJournal mode support) d size (Q := Step.Uses d)
        rfl rfl rfl) (x := .opened d) rfl
    simp only [Posix.native_bind]
    refine hprepare.bind ?_
    rintro prepared _ rfl
    rcases prepared with cause | n
    · -- the handle was never given out, but it is released like any other
      simp only [Posix.native_bind]
      refine (follows_abort hzero cause).bind ?_
      rintro e _ rfl
      exact .inl ⟨⟨_, rfl⟩, not_opened_released _ d⟩
    · exact .inr ⟨d, n, rfl, rfl, hzero⟩

theorem follows_openReader (patience : Nat) (p : Path) :
    (Posix.native patience (Session.openReader p)).Follows (reader p).Allows .unopened
      (reader p).Opens := by
  unfold Session.openReader Journal.openForRead
  rw [Posix.native_bind, Posix.native_bind, Posix.native_take, Program.bind_assoc]
  refine ((reader p).follows_openPath patience).bind fun r x hr => ?_
  rcases hr with ⟨⟨e, rfl⟩, rfl⟩ | ⟨d, rfl, rfl, hzero⟩
  · exact .inl ⟨⟨_, rfl⟩, by simp⟩
  · exact .inr ⟨d, 0, rfl, rfl, hzero⟩

end Programs

end Course

/-! ## Sessions with one journal -/

/-- What is done with a journal while it stays open. -/
inductive Access where
  | write (bytes : Bytes) (offset : UInt64)
  | read (buffer : Bytes) (offset : UInt64)
  | truncate (size : UInt64)
  | size

/-- An access to the first journal of a session. -/
def Access.operation : Access → Operation
  | write bytes offset => .write 0 bytes offset
  | read buffer offset => .read 0 buffer offset
  | truncate n => .truncate 0 n
  | size => .size 0

/-- How a journal is given up. -/
inductive Ending where
  | close
  | drop

/-- Giving up the first journal of a session. -/
def Ending.operation : Ending → Operation
  | close => .close 0
  | drop => .drop 0

namespace Course

variable {φ : Type} {o : Course} {x : Phase} {s : Session (Machine × φ)} {patience : Nat}
  {decide : Policy φ}

/-- The only journal of the session is open no longer; one that is not ephemeral may be given up
without a change of phase. -/
def Over (o : Course) (s : Session (Machine × φ)) (x : Phase) : Prop :=
  s.journals = [none] ∧ (o.ephemeral = true → ∀ d, x ≠ .opened d)

/-- The session has one journal, and stands in a phase with it. -/
inductive Stands (o : Course) : Session (Machine × φ) → Phase → Prop where
  | live {s : Session (Machine × φ)} {d : Descriptor} (hs : s.journals = [some ⟨0, o.handle d⟩])
      (hzero : o.path.hasZeroByte = false) : Stands o s (.opened d)
  | gone {s : Session (Machine × φ)} {x : Phase} (h : o.Over s x) : Stands o s x

theorem live?_of_some {l : LiveJournal} (hs : s.journals = [some l]) : s.live? 0 = some l := by
  unfold Session.live?
  rw [hs]
  rfl

theorem live?_of_none (hs : s.journals = [none]) : s.live? 0 = none := by
  unfold Session.live?
  rw [hs]
  rfl

/-- Calls through the descriptor of a journal do not change its phase. -/
theorem leads_of_through {history : List (Happening System Event)}
    (h : ∀ c ∈ requestsOf history, ∃ d, x.descriptor? = some d ∧ c.Through d) :
    Leads o.Allows x history x := by
  induction history with
  | nil => rfl
  | cons e rest ih =>
    cases e with
    | noted e => exact ih h
    | answered c r =>
      obtain ⟨d, hd, hc⟩ := h c List.mem_cons_self
      exact ⟨x, .through r hd hc, ih fun c' hc' => h c' (List.mem_cons_of_mem _ hc')⟩

theorem through_used {α : Type} (h : o.Stands s x) (op : Operation) {q : Handle → StepProgram α}
    (hq : ∀ j : Handle, ∀ d, j.descriptor = some d → (q j).Asks (Step.Uses d))
    (answer : α → Outcome Answer) :
    let r := s.used (fun _ => Posix.platform patience decide) op 0 q answer
    (∀ c ∈ requestsOf r.history, ∃ d, x.descriptor? = some d ∧ c.Through d) ∧
      o.Stands r.after x := by
  cases h with
  | live hs hzero =>
    simp only [Session.used, live?_of_some hs]
    refine ⟨fun c hc => ⟨_, rfl, ?_⟩, .live hs hzero⟩
    exact (Posix.asks_native_of_uses (hq _ _ rfl) patience).requests
      decide.handler s.world c hc
  | gone h =>
    simp only [Session.used, live?_of_none h.1]
    exact ⟨by simp, .gone h⟩

variable (patience decide) in
/-- An access to the journal makes calls through its descriptor, and keeps it open. -/
theorem through_access (h : o.Stands s x) (a : Access) :
    let r := s.step (fun _ => Posix.platform patience decide) a.operation
    (∀ c ∈ requestsOf r.history, ∃ d, x.descriptor? = some d ∧ c.Through d) ∧
      o.Stands r.after x := by
  cases a with
  | write bytes offset =>
    exact through_used h (.write 0 bytes offset) (fun j _ hd => j.asks_write hd bytes offset) _
  | read buffer offset =>
    exact through_used h (.read 0 buffer offset) (fun j _ hd => j.asks_read hd buffer offset) _
  | truncate n => exact through_used h (.truncate 0 n) (fun j _ hd => j.asks_truncate hd n) _
  | size => exact through_used h (.size 0) (fun j _ hd => j.asks_size hd) _

theorem leads_ended {α : Type} (h : o.Stands s x) (op : Operation)
    {q : Features → Handle → StepProgram α}
    (hq : ∀ d, o.path.hasZeroByte = false →
      (Posix.native patience (q Features.posix (o.handle d))).Follows o.Allows (.opened d)
        fun _ y => y = o.released d)
    (answer : α → Outcome Answer) :
    let r := s.ended (fun _ => Posix.platform patience decide) op 0 q answer
    ∃ y, Leads o.Allows x r.history y ∧ o.Over r.after y ∧ (r.answer = none → r.history = []) := by
  cases h with
  | @live d hs hzero =>
    simp only [Session.ended, live?_of_some hs]
    obtain ⟨y, hleads, rfl⟩ := (hq d hzero).run decide.handler s.world
    refine ⟨_, hleads, ⟨?_, fun he => not_opened_released o d he⟩, fun h => absurd h (by simp)⟩
    rw [hs]
    rfl
  | gone h =>
    simp only [Session.ended, live?_of_none h.1]
    exact ⟨x, rfl, h, fun _ => trivial⟩

variable (patience decide) in
/-- Giving up the journal releases it, if it is open. -/
theorem leads_ending (h : o.Stands s x) (e : Ending) :
    let r := s.step (fun _ => Posix.platform patience decide) e.operation
    ∃ y, Leads o.Allows x r.history y ∧ o.Over r.after y ∧ (r.answer = none → r.history = []) := by
  cases e with
  | close => exact leads_ended h (.close 0) (fun d hzero => follows_close hzero) _
  | drop => exact leads_ended h (.drop 0) (fun d hzero => follows_drop hzero) _

/-- The record of an opening that leads to a phase; unless the journal is live then, its life has
ended. -/
structure Begins (o : Course) (r : Session.Record System (Machine × φ)) (x : Phase) : Prop where
  leads : Leads o.Allows .unopened r.history x
  stands : o.Stands r.after x
  ends : r.after.journals = [none] → r.ends = true

theorem exists_begins_opened {prog : StepProgram (Outcome (Handle × Nat))}
    (hprog : (Posix.native patience prog).Follows o.Allows .unopened o.Opens) {op : Operation}
    (hop : ∀ r : Session.Record System (Machine × φ), r.operation = op →
      r.ends = r.answer.any fun a => !a.isOk)
    (w : Machine × φ) (answer : Nat → Answer) :
    ∃ x, o.Begins ((Session.start w).opened op 0 ((Posix.platform patience decide).run prog w)
      answer) x := by
  obtain ⟨x, hleads, hopens⟩ := hprog.run decide.handler w
  rw [← Posix.run_platform] at hleads hopens
  unfold Session.opened
  rcases hopens with ⟨⟨f, hf⟩, hx⟩ | ⟨d, n, hd, rfl, hzero⟩
  · rw [hf]
    exact ⟨x, hleads, .gone ⟨rfl, hx⟩, fun _ => hop _ rfl⟩
  · rw [hd]
    exact ⟨.opened d, hleads, .live rfl hzero, fun hnone => absurd hnone (by simp [Session.start])⟩

/-- Opening for writing begins the course of a writer. -/
theorem exists_begins_openForWrite (patience : Nat) (decide : Policy φ) (w : Machine × φ)
    (p : Path) (mode : JournalMode) (size : UInt64) (support : DurabilitySupport) :
    ∃ x, (writer p mode support).Begins ((Session.start w).step
      (fun _ => Posix.platform patience decide) (.openForWrite 0 p mode size support)) x :=
  exists_begins_opened (follows_openForWrite patience p mode size support)
    (fun r hr => by simp [Session.Record.ends, hr]) w .number

/-- Opening for reading begins the course of a reader. -/
theorem exists_begins_openForRead (patience : Nat) (decide : Policy φ) (w : Machine × φ)
    (p : Path) :
    ∃ x, (reader p).Begins ((Session.start w).step
      (fun _ => Posix.platform patience decide) (.openForRead 0 p)) x :=
  exists_begins_opened (follows_openReader patience p)
    (fun r hr => by simp [Session.Record.ends, hr]) w _

/-! ## Runs -/

/-- The operations of a session that opens one journal, uses it, and gives it up. -/
def operations (opening : Operation) (accesses : List Access) (ending : Ending) : List Operation :=
  opening :: (accesses.map Access.operation ++ [ending.operation])

variable {opening : Operation} {w : Machine × φ}

variable (patience decide) in
/-- Accesses to the journal do not change its phase. -/
theorem leads_accesses (h : o.Stands s x) (accesses : List Access) :
    let ops := accesses.map Access.operation
    let platforms := fun _ => Posix.platform patience decide
    Leads o.Allows x (Session.trace (Session.run platforms s ops)) x ∧
      o.Stands (Session.final platforms s ops) x := by
  induction accesses generalizing s with
  | nil => exact ⟨rfl, h⟩
  | cons a rest ih =>
    obtain ⟨hcalls, hafter⟩ := through_access patience decide h a
    obtain ⟨hleads, hstands⟩ := ih hafter
    exact ⟨leads_append.mpr ⟨x, leads_of_through hcalls, hleads⟩, hstands⟩

/-- The calls of a session with one journal go through the phases in their order. -/
theorem exists_leads_run
    (h : o.Begins ((Session.start w).step (fun _ => Posix.platform patience decide) opening) x)
    (accesses : List Access) (ending : Ending) :
    let ops := operations opening accesses ending
    ∃ y, Leads o.Allows .unopened (Session.trace
        (Session.run (fun _ => Posix.platform patience decide) (Session.start w) ops)) y ∧
      o.Over (Session.final (fun _ => Posix.platform patience decide) (Session.start w) ops) y := by
  intro ops
  obtain ⟨hleads, hstands⟩ := leads_accesses patience decide h.stands accesses
  obtain ⟨y, hlast, hover, -⟩ := leads_ending patience decide hstands ending
  refine ⟨y, ?_, ?_⟩
  · unfold ops operations
    rw [Session.run, Session.run_append, ← List.singleton_append, Session.trace_append,
      Session.trace_append]
    refine leads_append.mpr ⟨x, ?_, leads_append.mpr ⟨x, hleads, ?_⟩⟩
    · simpa [Session.trace] using h.leads
    · simpa [Session.trace, Session.run] using hlast
  · unfold ops operations
    rw [Session.final, Session.final_append]
    exact hover

/-- The session stands in a phase, after calls that have led there from the world `w`. -/
structure Reached (o : Course) (decide : Policy φ) (w : Machine × φ) (s : Session (Machine × φ))
    (x : Phase) : Prop where
  stands : o.Stands s x
  calls : ∃ past : List (Happening System Event),
    Leads o.Allows .unopened past x ∧ Leads decide.handler.answering w past s.world

/-- What an operation leaves was reached by the calls that were made before and in it. -/
theorem Reached.step (hcalls : ∃ past : List (Happening System Event),
      Leads o.Allows .unopened past x ∧ Leads decide.handler.answering w past s.world)
    {op : Operation} {y : Phase}
    (hleads : Leads o.Allows x (s.step (fun _ => Posix.platform patience decide) op).history y)
    (hstands : o.Stands (s.step (fun _ => Posix.platform patience decide) op).after y) :
    o.Reached decide w (s.step (fun _ => Posix.platform patience decide) op).after y := by
  obtain ⟨past, hphase, hworld⟩ := hcalls
  refine ⟨hstands, past ++ (s.step (fun _ => Posix.platform patience decide) op).history, ?_, ?_⟩
  · exact leads_append.mpr ⟨x, hphase, hleads⟩
  · exact leads_append.mpr ⟨s.world, hworld,
      Session.leads_step (Posix.platform patience decide) s op⟩

theorem journals_access (s : Session (Machine × φ)) (a : Access) :
    (s.step (fun _ => Posix.platform patience decide) a.operation).after.journals = s.journals := by
  cases a <;> simp only [Access.operation, Session.step, Session.used] <;> split <;> rfl

theorem Reached.access (h : o.Reached decide w s x) (a : Access) :
    o.Reached decide w (s.step (fun _ => Posix.platform patience decide) a.operation).after x := by
  obtain ⟨hcalls, hstands⟩ := through_access _ _ h.stands a
  exact .step h.calls (leads_of_through hcalls) hstands

theorem Reached.accesses (h : o.Reached decide w s x) (accesses : List Access) :
    o.Reached decide w (Session.final (fun _ => Posix.platform patience decide) s
      (accesses.map Access.operation)) x := by
  induction accesses generalizing s with
  | nil => exact h
  | cons a rest ih => exact ih (h.access a)

/-- What a session with one journal records is its opening, or an access or the end after it. -/
theorem mem_run_cases
    (h : o.Begins ((Session.start w).step (fun _ => Posix.platform patience decide) opening) x)
    {accesses : List Access} {ending : Ending} {r : Session.Record System (Machine × φ)}
    (hr : r ∈ Session.run (fun _ => Posix.platform patience decide) (Session.start w)
      (operations opening accesses ending)) :
    let first := (Session.start w).step (fun _ => Posix.platform patience decide) opening
    r = first ∨
      (∃ s a, (o.Reached decide w s x ∧ s.journals = first.after.journals) ∧
        r = s.step (fun _ => Posix.platform patience decide) (Access.operation a)) ∨
      ∃ s, o.Reached decide w s x ∧
        r = s.step (fun _ => Posix.platform patience decide) ending.operation := by
  intro first
  have hafter : o.Reached decide w first.after x := .step ⟨[], rfl, rfl⟩ h.leads h.stands
  unfold operations at hr
  rw [Session.run, Session.run_append] at hr
  rcases List.mem_cons.mp hr with rfl | hr
  · exact .inl rfl
  rcases List.mem_append.mp hr with hr | hr
  · refine .inr (.inl ?_)
    have hops : ∀ op ∈ accesses.map Access.operation, ∃ a, op = Access.operation a := by
      intro op hop
      obtain ⟨a, -, rfl⟩ := List.mem_map.mp hop
      exact ⟨a, rfl⟩
    refine Session.forall_mem_run
      (J := fun s => o.Reached decide w s x ∧ s.journals = first.after.journals)
      (P := fun r => ∃ s a, (o.Reached decide w s x ∧ s.journals = first.after.journals) ∧
        r = s.step _ (Access.operation a)) ?_ hops ⟨hafter, rfl⟩ r hr
    rintro s _ ⟨a, rfl⟩ hs
    exact ⟨⟨s, a, hs, rfl⟩, hs.1.access a, (journals_access s a).trans hs.2⟩
  · obtain rfl := List.mem_singleton.mp hr
    exact .inr (.inr ⟨_, hafter.accesses accesses, rfl⟩)

/-- Only what ends the life of a journal unlinks anything: an opening that fails, a close or a
drop. -/
theorem unlinks_end
    (h : o.Begins ((Session.start w).step (fun _ => Posix.platform patience decide) opening) x)
    {accesses : List Access} {ending : Ending} {r : Session.Record System (Machine × φ)}
    (hr : r ∈ Session.run (fun _ => Posix.platform patience decide) (Session.start w)
      (operations opening accesses ending)) {p : Path} {reply : Except Int Unit}
    (hmem : .answered (.unlink p) reply ∈ r.history) : r.ends = true := by
  rcases mem_run_cases h hr with rfl | ⟨s, a, ⟨hs, -⟩, rfl⟩ | ⟨s, hs, rfl⟩
  · -- a journal that was given out has its name still
    cases h.stands with
    | live hs hzero => exact absurd hmem ((shows_of_leads h.leads).2 p reply)
    | gone hs => exact h.ends hs.1
  · have hcall := mem_requestsOf.mpr ⟨_, hmem⟩
    obtain ⟨d, -, hc⟩ := (through_access _ _ hs.stands a).1 _ hcall
    exact absurd hc id
  · obtain ⟨y, -, -, hanswer⟩ := leads_ending patience decide hs.stands ending
    have hsome : (s.step (fun _ => Posix.platform patience decide)
        ending.operation).answer.isSome = true := by
      rw [Option.isSome_iff_ne_none]
      intro hnone
      rw [hanswer hnone] at hmem
      exact absurd hmem (by simp)
    unfold Session.Record.ends
    rw [Session.operation_step]
    cases ending with
    | close => exact hsome
    | drop => exact hsome

/-! ## Every moment of a run -/

/-- What the calls of each phase preserve holds wherever they lead. -/
theorem invariant {P : SystemCall → Verdict → Prop} (hdecide : decide.Within P)
    {J : Phase → Machine → Prop}
    (hstep : ∀ x m (c : SystemCall) (r : c.Reply) y m', J x m → o.Allows x c r y →
      m.Answers P c r m' → J y m')
    {past : List (Happening System Event)} {y : Phase} {w' : Machine × φ}
    (hphase : Leads o.Allows x past y) (hworld : Leads decide.handler.answering w past w')
    (h : J x w.1) : J y w'.1 := by
  have hanswers : Leads (Machine.Answers P) w.1 past w'.1 := by
    refine hworld.map Prod.fst ?_
    rintro v c r v' hv
    refine ⟨(decide c v.2).1, hdecide c v.2, ?_⟩
    rw [← congrArg (fun z => (z.1, z.2.1)) hv]
    rfl
  refine (hphase.prod hanswers).invariant (P := fun z => J z.1 z.2) ?_ h
  rintro z c r z' hz ⟨hx, hm⟩
  exact hstep _ _ _ _ _ _ hz hx hm

/-- At every moment of a session with one journal its calls have led to a phase. -/
theorem exists_phase_of_prefix
    (h : o.Begins ((Session.start w).step (fun _ => Posix.platform patience decide) opening) x)
    {accesses : List Access} {ending : Ending} {past : List (Happening System Event)}
    (hpast : past <+: Session.trace (Session.run (fun _ => Posix.platform patience decide)
      (Session.start w) (operations opening accesses ending))) :
    ∃ y, Leads o.Allows .unopened past y ∧
      Leads decide.handler.answering w past (worldAfter decide.handler w past) := by
  obtain ⟨y, hphase, -⟩ := exists_leads_run h accesses ending
  have hworld := Session.leads_run (Posix.platform patience decide) (Session.start w)
    (operations opening accesses ending)
  obtain ⟨z, hz⟩ := hphase.exists_of_prefix hpast
  obtain ⟨w', hw'⟩ : ∃ w', Leads decide.handler.answering w past w' :=
    hworld.exists_of_prefix hpast
  exact ⟨z, hz, by rwa [hw'.worldAfter_eq]⟩

end Course

end WriteAhead
