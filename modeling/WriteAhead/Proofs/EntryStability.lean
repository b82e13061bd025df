/-
# Durable writes and the name of the file

In durable mode a write returns only when its bytes are on stable storage.  The name of a file that
the opening has made is not among them: a name is stable only once its directory was synced, and
of all that is done with a journal only a truncation syncs the directory.

* `Posix.syncs_truncate` : what a truncation syncs;
* `Session.syncs_run` : what is synced over a run of writes and truncations;
* `Session.write_entryStable_iff` : the writes by which the name of their file is stable.
-/
import WriteAhead.Proofs.Directory
import WriteAhead.Proofs.Forcing
import WriteAhead.Proofs.Session
import WriteAhead.Proofs.Truncation

namespace WriteAhead

open Program

namespace Posix

/-! ## What a truncation syncs -/

/-- The directory of a path was opened, and synced while it was open. -/
def DirectorySynced (p : Path) (history : List (Happening System Event)) : Prop :=
  ∃ x, [.answered (.open_ p.directory .read) (.ok x),
    .answered (.sync x) (.ok ())].Sublist history

theorem DirectorySynced.mono {p : Path} {xs ys : List (Happening System Event)}
    (h : DirectorySynced p xs) (hsub : xs.Sublist ys) : DirectorySynced p ys := by
  obtain ⟨x, hx⟩ := h
  exact ⟨x, hx.trans hsub⟩

/-- Every directory lies on a file system that allows it to be synced. -/
def Local : SystemCall → Verdict → Prop
  | .fileSystem _, v => SyncPolicy.ofFileSystem v.fileSystemWord = .allowed
  | _, _ => True

end Posix

namespace Machine

variable {P : SystemCall → Verdict → Prop} {m m' : Machine} {d x : Descriptor} {p : Path}

/-- What was opened for writing is a file, and not its own directory. -/
theorem Answers.directory_ne {synchronous direct : Bool}
    (h : m.Answers P (.open_ p (.write synchronous direct)) (.ok d) m') : p.directory ≠ p := by
  rcases h.openWrite with ⟨id, t, hmake, -, -⟩ | ⟨-, ⟨_, hd⟩, -⟩
  · exact FileTree.directory_ne_of_openOrMake hmake
  · exact absurd hd (by simp)

theorem Answers.policy_of_fileSystem {word : UInt64}
    (h : m.Answers Posix.Local (.fileSystem x) (.ok word) m') :
    SyncPolicy.ofFileSystem word = .allowed := by
  rcases h.cases with ⟨_, -, hr, -⟩ | ⟨v, hv, hperform⟩
  · exact absurd hr (by simp)
  · simp only [perform, ifOpen] at hperform
    split at hperform
    · exact absurd hperform (by simp)
    · obtain ⟨hword, -⟩ := Prod.mk.inj hperform
      obtain rfl := Except.ok.inj hword
      exact hv

end Machine

namespace Posix

variable {m m' : Machine} {history : List (Happening System Event)} {d : Descriptor}
  {p dir : Path} {size : UInt64} {patience : Nat}

/-- Syncing a directory does not fail, and then the directory was opened, examined and, where that
is allowed, synced; or it fails, and then no sync was made that did not. -/
theorem directorySyncing_cases (dir : Path) (opened : Except Int Descriptor)
    (fileSystem : Except Int UInt64) (synced : Except Int Unit) :
    let trials := directorySyncing dir opened fileSystem synced
    (Trial.verdict trials = .ok () ∧ ∃ x word, Trial.made trials =
        ⟨.open_ dir .read, .ok x⟩ :: ⟨.fileSystem x, .ok word⟩ ::
          if SyncPolicy.ofFileSystem word = .allowed then [⟨.sync x, .ok ()⟩] else []) ∨
      (∃ e, Trial.verdict trials = .error e) ∧
        ∀ x, (⟨.sync x, .ok ()⟩ : Exchange) ∉ Trial.made trials := by
  intro trials
  unfold trials directorySyncing opening
  by_cases hzero : dir.hasZeroByte = true
  · rw [if_pos hzero]
    refine .inr ⟨⟨_, rfl⟩, ?_⟩
    simp [Trial.made, Trial.attempted, Trial.refused]
  rw [if_neg hzero]
  cases opened with
  | error code =>
    refine .inr ⟨⟨_, rfl⟩, ?_⟩
    simp [Trial.made, Trial.attempted, Trial.of]
  | ok x =>
    cases fileSystem with
    | error code =>
      refine .inr ⟨⟨_, rfl⟩, ?_⟩
      simp [Trial.made, Trial.attempted, Trial.of, examining]
    | ok word =>
      by_cases hallowed : SyncPolicy.ofFileSystem word = .allowed
      · cases synced with
        | error code =>
          refine .inr ⟨⟨.sync (.code code), ?_⟩, ?_⟩
          · simp [Trial.verdict, Trial.of, examining, hallowed]
          · simp [Trial.made, Trial.attempted, Trial.of, examining, hallowed]
        | ok u =>
          refine .inl ⟨?_, x, word, ?_⟩
          · simp [Trial.verdict, Trial.of, examining, hallowed]
          · simp [Trial.made, Trial.attempted, Trial.of, examining, hallowed]
      · refine .inl ⟨?_, x, word, ?_⟩
        · simp [Trial.verdict, Trial.of, examining, hallowed]
        · simp [Trial.made, Trial.attempted, Trial.of, examining, hallowed]

/-- Once the file is done, a directory that was synced was opened before. -/
theorem directorySynced_of_made {a : Truncation} {x : Descriptor} {word : UInt64}
    (hfile : Trial.verdict (a.filePlan d size) = .ok ())
    (hmade : Trial.made (a.directoryPlan (some p)) =
      ⟨.open_ p.directory .read, .ok x⟩ :: ⟨.fileSystem x, .ok word⟩ ::
        if SyncPolicy.ofFileSystem word = .allowed then [⟨.sync x, .ok ()⟩] else [])
    (hexchanges : Exchanges (a.exchanges d (some p) size) history)
    (hlocal : ∀ x word, .answered (.fileSystem x) (.ok word) ∈ history →
      SyncPolicy.ofFileSystem word = .allowed) : DirectorySynced p history := by
  have hall : (Trial.made (a.directoryPlan (some p))).Sublist (a.exchanges d (some p) size) := by
    unfold Truncation.exchanges Truncation.plan thenClosed
    rw [Trial.made_append_of_ok hfile]
    exact (List.sublist_append_right _ _).trans (List.sublist_append_left _ _)
  rw [hmade] at hall
  have hallowed : SyncPolicy.ofFileSystem word = .allowed :=
    hlocal x word (hexchanges.answered_of_mem
      (hall.subset (List.mem_cons_of_mem _ List.mem_cons_self)))
  rw [if_pos hallowed] at hall
  have hcalls : [(⟨.open_ p.directory .read, .ok x⟩ : Exchange), ⟨.sync x, .ok ()⟩].Sublist
      (a.exchanges d (some p) size) :=
    ((List.sublist_cons_self _ _).cons_cons _).trans hall
  exact ⟨x, (hcalls.map _).trans hexchanges.sublist⟩

/-- A truncation that succeeds has synced the directory, where that is allowed; one that fails has
synced nothing but the file. -/
theorem syncs_truncate {h : Handle} (hd : h.descriptor = some d) (hp : h.path = some p)
    {r : Outcome Unit}
    (hends : CanEnd Local (native patience (h.truncate size)) m r m' history) :
    (r = .ok () ∧ DirectorySynced p history) ∨
      (∃ e, r = .error e) ∧ ∀ x, .answered (.sync x) (.ok ()) ∈ history → x = d := by
  obtain ⟨a, rfl, hexchanges, -, -⟩ := stops_truncate hd hends
  rw [hp] at hexchanges ⊢
  have hmade : ∀ x, .answered (.sync x) (.ok ()) ∈ history →
      (⟨.sync x, .ok ()⟩ : Exchange) ∈ Trial.made (a.plan d (some p) size) := fun x hx =>
    mem_of_mem_thenClosed (hexchanges.mem_of_answered (by simp) hx) (by simp)
  have hfile : ∀ x, (⟨.sync x, .ok ()⟩ : Exchange) ∈ Trial.made (a.filePlan d size) → x = d := by
    intro x hx
    exact Trial.forall_mem_made (Truncation.calls_filePlan (fun c => ∀ y, c = .sync y → y = d)
      (by simp) (by simp) (by simp) (by simp)) _ hx x rfl
  unfold Truncation.plan at hmade ⊢
  cases hverdict : Trial.verdict (a.filePlan d size) with
  | error e =>
    rw [Trial.made_append_of_error hverdict] at hmade
    rw [(Trial.append_of_error hverdict).2]
    exact .inr ⟨⟨_, rfl⟩, fun x hx => hfile x (hmade x hx)⟩
  | ok u =>
    rw [Trial.made_append_of_ok hverdict] at hmade
    rw [(Trial.append_of_ok hverdict).2]
    rcases directorySyncing_cases p.directory a.opened a.fileSystem a.synced with
      ⟨hok, x, word, hsynced⟩ | ⟨⟨e, he⟩, hnone⟩
    · refine .inl ⟨congrArg _ hok, directorySynced_of_made hverdict hsynced hexchanges ?_⟩
      intro y word' hmem
      obtain ⟨_, _, hanswer⟩ := exists_answer_of_ends hends hmem
      exact hanswer.policy_of_fileSystem
    · refine .inr ⟨⟨.error e, congrArg _ he⟩, fun x hx => ?_⟩
      rcases List.mem_append.mp (hmade x hx) with hx | hx
      · exact hfile x hx
      · exact absurd hx (hnone x)

/-! ## The call that makes the name -/

/-- A journal is given out on the descriptor that its path was opened with. -/
theorem opened_openForWrite {P : SystemCall → Verdict → Prop} {mode : JournalMode}
    {support : DurabilitySupport} {r : Outcome (Handle × Nat)}
    (h : CanEnd P (native patience (Journal.openForWrite Features.posix p mode size support))
      m r m' history) :
    (∃ f, r = .error f) ∨ ∃ d n direct, r = .ok (Journal.writer p mode support d, n) ∧
      .answered (.open_ p (.write (mode = .durable) direct)) (.ok d) ∈ history := by
  unfold Journal.openForWrite at h
  by_cases hsize : size = 0
  · rw [if_pos hsize] at h
    obtain ⟨rfl, -, -⟩ := h
    exact .inl ⟨_, rfl⟩
  rw [if_neg hsize, native_bind, native_take] at h
  obtain ⟨a, m₁, xs, ys, ha, hr, rfl⟩ := ends_bind.mp h
  rcases exchanges_openPath ha with ⟨-, -, rfl, -⟩ | ⟨-, reply, -, rfl, hexchanges⟩
  · obtain ⟨rfl, -, -⟩ := hr
    exact .inl ⟨_, rfl⟩
  · cases reply with
    | error code =>
      obtain ⟨rfl, -, -⟩ := hr
      exact .inl ⟨_, rfl⟩
    | ok d =>
      simp only [ofSystem] at hr
      rw [native_bind] at hr
      obtain ⟨b, m₂, us, vs, -, hr, rfl⟩ := ends_bind.mp hr
      cases b with
      | error cause =>
        simp only at hr
        rw [native_bind] at hr
        obtain ⟨e, m₃, ws, zs, -, ⟨rfl, -, -⟩, rfl⟩ := ends_bind.mp hr
        exact .inl ⟨_, rfl⟩
      | ok n =>
        obtain ⟨rest, ⟨rfl, -, -⟩, rfl⟩ := hr
        have hopened := hexchanges.answered_of_mem (List.mem_singleton.mpr rfl)
        rw [OpenFlags.synchronous_forJournal] at hopened
        exact .inr ⟨d, n, _, rfl, List.mem_append_left _ hopened⟩

end Posix

/-! ## Sessions with one journal -/

/-- What is done with a journal that stays open for writing. -/
inductive Use where
  | write (bytes : Bytes) (offset : UInt64)
  | truncate (size : UInt64)

/-- A use of the first journal of a session. -/
def Use.operation : Use → Operation
  | write bytes offset => .write 0 bytes offset
  | truncate size => .truncate 0 size

namespace Session

variable {φ : Type} {patience : Nat} {decide : Policy φ} {p : Path} {d : Descriptor}
  {s : Session (Machine × φ)} {r : Record System (Machine × φ)}

/-- The record is of a truncation that succeeded. -/
def Record.Truncated (r : Record System (Machine × φ)) : Prop :=
  ∃ size, r.operation = .truncate 0 size ∧ r.answer = some (.ok .done)

/-- The name of the file that was made at a path is stable: after the call that opened the file,
the directory was opened and synced. -/
def EntryStable (p : Path) (trace : List (Happening System Event)) : Prop :=
  ∃ before direct d after,
    trace = before ++ .answered (.open_ p (.write true direct)) (.ok d) :: after ∧
      Posix.DirectorySynced p after

/-! ### What is answered in a session -/

/-- Whatever a session records as answered, a machine could answer. -/
theorem exists_answer_of_step {P : SystemCall → Verdict → Prop} (hdecide : decide.Within P)
    (s : Session (Machine × φ)) (op : Operation) {c : SystemCall} {reply : c.Reply}
    (h : .answered c reply ∈ (s.step (fun _ => Posix.platform patience decide) op).history) :
    ∃ m m', Machine.Answers P m c reply m' := by
  have hrun : ∀ {α : Type} (prog : SystemProgram α) (w : Machine × φ),
      .answered c reply ∈ (prog.run decide.handler w).history →
        ∃ m m', Machine.Answers P m c reply m' :=
    fun prog w hmem => exists_answer_of_ends (Posix.canEnd_run hdecide prog w) hmem
  cases op with
  | openForWrite | openForRead =>
    simp only [step, opened] at h
    split at h <;> exact hrun _ _ h
  | write | read | truncate | size =>
    simp only [step, used] at h
    split at h
    · exact absurd h (by simp)
    · exact hrun _ _ h
  | close | drop =>
    simp only [step, ended] at h
    split at h
    · exact absurd h (by simp)
    · exact hrun _ _ h

theorem exists_answer_of_run {P : SystemCall → Verdict → Prop} (hdecide : decide.Within P)
    {ops : List Operation}
    (hr : r ∈ run (fun _ => Posix.platform patience decide) s ops) {c : SystemCall}
    {reply : c.Reply} (h : .answered c reply ∈ r.history) :
    ∃ m m', Machine.Answers P m c reply m' := by
  induction ops generalizing s with
  | nil => exact absurd hr (by simp [run])
  | cons op ops ih =>
    rcases List.mem_cons.mp hr with rfl | hr
    · exact exists_answer_of_step hdecide s op h
    · exact ih hr

/-! ### What is synced in a session -/

/-- What an operation on the journal that is open as `d` has synced: the directory, if it was a
truncation that succeeded, and otherwise nothing but the file. -/
structure Record.Syncs (p : Path) (d : Descriptor) (r : Record System (Machine × φ)) : Prop where
  directory : r.Truncated → Posix.DirectorySynced p r.history
  file : ¬ r.Truncated → ∀ x, .answered (.sync x) (.ok ()) ∈ r.history → x = d

/-- The session has one journal, which is open at a path. -/
def Holding (s : Session (Machine × φ)) (p : Path) (d : Descriptor) : Prop :=
  ∃ l : LiveJournal, s.journals = [some l] ∧ l.handle.descriptor = some d ∧ l.handle.path = some p

/-- A use of the journal syncs what it should, and keeps the journal open. -/
theorem syncs_step (patience : Nat) (hdecide : decide.Within Posix.Local) (h : s.Holding p d)
    (u : Use) :
    let r := s.step (fun _ => Posix.platform patience decide) u.operation
    r.Syncs p d ∧ r.after.Holding p d := by
  obtain ⟨l, hjournals, hd, hp⟩ := h
  have hlive : s.live? 0 = some l := by
    unfold live?
    rw [hjournals]
    rfl
  cases u with
  | write bytes offset =>
    simp only [Use.operation, step, used, hlive]
    refine ⟨⟨?_, fun _ x hx => ?_⟩, l, hjournals, hd, hp⟩
    · rintro ⟨size, hop, -⟩
      exact absurd hop (by simp)
    · exact absurd hx (Posix.not_synced_run (l.handle.asks_write_unforced bytes offset) _ _ _ _ _)
  | truncate size =>
    simp only [Use.operation, step, used, hlive]
    refine ⟨?_, l, hjournals, hd, hp⟩
    rw [Posix.run_platform]
    have hends := Posix.canEnd_run hdecide (Posix.native patience (l.handle.truncate size)) s.world
    rcases Posix.syncs_truncate hd hp hends with ⟨hok, hsynced⟩ | ⟨⟨e, he⟩, hfile⟩
    · rw [hok]
      exact ⟨fun _ => hsynced, fun hnot => absurd ⟨size, rfl, rfl⟩ hnot⟩
    · rw [he]
      refine ⟨?_, fun _ => hfile⟩
      rintro ⟨size, -, hok⟩
      exact absurd hok (by simp [Except.map])

/-- Over a run of uses of the journal, each syncs what it should. -/
theorem syncs_run (hdecide : decide.Within Posix.Local) (h : s.Holding p d) {uses : List Use}
    (hr : r ∈ run (fun _ => Posix.platform patience decide) s (uses.map Use.operation)) :
    r.Syncs p d := by
  induction uses generalizing s with
  | nil => exact absurd hr (by simp [run])
  | cons u uses ih =>
    obtain ⟨hsyncs, hafter⟩ := syncs_step patience hdecide h u
    rcases List.mem_cons.mp hr with rfl | hr
    · exact hsyncs
    · exact ih hafter hr

/-- What cannot be opened is not used. -/
theorem answer_of_run_of_none (h : s.journals = [none]) {uses : List Use}
    (hr : r ∈ run (fun _ => Posix.platform patience decide) s (uses.map Use.operation)) :
    r.answer = none := by
  have hlive : s.live? 0 = none := by
    unfold live?
    rw [h]
    rfl
  induction uses generalizing s with
  | nil => exact absurd hr (by simp [run])
  | cons u uses ih =>
    have hstep : s.step (fun _ => Posix.platform patience decide) u.operation =
        ⟨u.operation, 0, none, [], s⟩ := by
      cases u <;> simp only [Use.operation, step, used, hlive]
    rw [List.map_cons, run, hstep] at hr
    rcases List.mem_cons.mp hr with rfl | hr
    · rfl
    · exact ih h hr hlive

/-! ### Opening the journal -/

/-- Opening a journal durably makes the call that makes the name of its file, and syncs nothing. -/
theorem opens_step (patience : Nat) (decide : Policy φ) (m : Machine) (w : φ) (p : Path)
    (size : UInt64) (support : DurabilitySupport) :
    let r := (start (m, w)).step (fun _ => Posix.platform patience decide)
      (.openForWrite 0 p .durable size support)
    r.after.journals = [none] ∨ ∃ d, r.after.Holding p d ∧ r.Syncs p d ∧
      ∃ direct, .answered (.open_ p (.write true direct)) (.ok d) ∈ r.history := by
  intro r
  obtain ⟨x, hx⟩ : ∃ x, x = (Posix.native patience
      (Journal.openForWrite Features.posix p .durable size support)).run decide.handler (m, w) :=
    ⟨_, rfl⟩
  have hr : r = (start (m, w)).opened (.openForWrite 0 p .durable size support) 0 x .number := by
    rw [hx]
    rfl
  have hquiet : ∀ y, .answered (.sync y) (.ok ()) ∉ x.history := by
    rw [hx]
    exact fun y => Posix.not_synced_run (Journal.asks_openForWrite _ _ _ _ _) _ _ _ _ _
  have hends : CanEnd (fun _ _ => True)
      (Posix.native patience (Journal.openForWrite Features.posix p .durable size support))
      m x.value x.world.1 x.history := by
    rw [hx]
    exact Posix.canEnd_run (fun _ _ => trivial) _ (m, w)
  rw [hr, opened]
  rcases Posix.opened_openForWrite hends with ⟨f, hf⟩ | ⟨d, n, direct, hd, hopened⟩
  · rw [hf]
    exact .inl rfl
  · rw [hd]
    refine .inr ⟨d, ⟨_, rfl, rfl, rfl⟩, ⟨?_, fun _ y hy => absurd hy (hquiet y)⟩, direct, hopened⟩
    rintro ⟨_, hop, -⟩
    exact absurd hop (by simp)

/-! ### When the name is stable -/

/-- Of operations that sync what they should, only a truncation that succeeds makes the name
stable. -/
theorem entryStable_iff {o : Record System (Machine × φ)}
    {later : List (Record System (Machine × φ))} {direct : Bool}
    (hopened : .answered (.open_ p (.write true direct)) (.ok d) ∈ o.history)
    (ho : ¬ o.Truncated) (hsyncs : ∀ q ∈ o :: later, q.Syncs p d)
    (hpath : ∀ q ∈ o :: later, ∀ x,
      .answered (.open_ p.directory .read) (.ok x) ∈ q.history → x ≠ d) :
    EntryStable p ((o :: later).flatMap (·.history)) ↔ ∃ q ∈ o :: later, q.Truncated := by
  constructor
  · rintro ⟨before, _, _, after, htrace, x, hx⟩
    by_contra hnone
    have hmem : ∀ e ∈ after, ∃ q ∈ o :: later, e ∈ q.history := by
      intro e he
      have hall : e ∈ (o :: later).flatMap (·.history) := by
        rw [htrace]
        exact List.mem_append_right _ (List.mem_cons_of_mem _ he)
      exact List.mem_flatMap.mp hall
    obtain ⟨q, hq, hopen⟩ := hmem _ (hx.subset List.mem_cons_self)
    obtain ⟨q', hq', hsync⟩ := hmem _ (hx.subset (List.mem_cons_of_mem _ List.mem_cons_self))
    -- what was synced is the file, and not the directory
    exact hpath q hq x hopen
      ((hsyncs q' hq').file (fun htruncated => hnone ⟨q', hq', htruncated⟩) x hsync)
  · rintro ⟨q, hq, htruncated⟩
    have hlater : q ∈ later := (List.mem_cons.mp hq).resolve_left fun heq => ho (heq ▸ htruncated)
    obtain ⟨before, after, hhistory⟩ := List.append_of_mem hopened
    refine ⟨before, direct, d, after ++ later.flatMap (·.history), ?_, ?_⟩
    · rw [List.flatMap_cons, hhistory, List.append_assoc, List.cons_append]
    · have hsub : q.history.Sublist (later.flatMap (·.history)) := by
        rw [List.flatMap_def]
        exact List.sublist_flatten_of_mem (List.mem_map_of_mem hlater)
      exact ((hsyncs q hq).directory htruncated).mono
        (hsub.trans (List.sublist_append_right _ _))

/-- Where anything is answered to a use of the journal, the journal is open, and all that is done
syncs what it should. -/
theorem exists_syncs_of_answered (hdecide : decide.Within Posix.Local) {m : Machine} {w : φ}
    {size : UInt64} {support : DurabilitySupport} {uses : List Use}
    {o : Record System (Machine × φ)} {later : List (Record System (Machine × φ))}
    (hrun : run (fun _ => Posix.platform patience decide) (start (m, w))
      (.openForWrite 0 p .durable size support :: uses.map Use.operation) = o :: later)
    (hr : r ∈ later) (hanswer : r.answer ≠ none) :
    ∃ d direct, .answered (.open_ p (.write true direct)) (.ok d) ∈ o.history ∧
      ∀ q ∈ o :: later, q.Syncs p d := by
  rw [run] at hrun
  obtain ⟨rfl, rfl⟩ := List.cons.inj hrun
  rcases opens_step patience decide m w p size support with
    hnone | ⟨d, hholding, hsyncs, direct, hopened⟩
  · exact absurd (answer_of_run_of_none hnone hr) hanswer
  · refine ⟨d, direct, hopened, fun q hq => ?_⟩
    rcases List.mem_cons.mp hq with rfl | hq
    · exact hsyncs
    · exact syncs_run hdecide hholding hq

/-- **Durable writes and the name of their file.**  A journal is opened durably, and written and
truncated in any way, on file systems that allow directories to be synced.  When a write succeeds,
the name of the file that the opening has made is stable exactly if a truncation has succeeded
since; the opening and the writes never make it so. -/
theorem write_entryStable_iff (hdecide : decide.Within Posix.Local) (m : Machine) (w : φ) (p : Path)
    (size : UInt64) (support : DurabilitySupport) (uses : List Use)
    {past rest : List (Record System (Machine × φ))}
    (hrun : run (fun _ => Posix.platform patience decide) (start (m, w))
      (.openForWrite 0 p .durable size support :: uses.map Use.operation) = past ++ r :: rest)
    {bytes : Bytes} {offset : UInt64} (hwrite : r.operation = .write 0 bytes offset)
    (hok : r.answer = some (.ok .done)) :
    EntryStable p ((past ++ [r]).flatMap (·.history)) ↔ ∃ q ∈ past, q.Truncated := by
  cases past with
  | nil =>
    -- the first operation is no write
    rw [run] at hrun
    obtain ⟨rfl, -⟩ := List.cons.inj hrun
    rw [operation_step] at hwrite
    exact absurd hwrite (by simp)
  | cons o past =>
    have hopening : o.operation = .openForWrite 0 p .durable size support := by
      have hhead := hrun
      rw [run] at hhead
      rw [← (List.cons.inj hhead).1, operation_step]
    have ho : ¬ o.Truncated := fun ⟨_, h, _⟩ => absurd (hopening.symm.trans h) (by simp)
    have hr : ¬ r.Truncated := fun ⟨_, h, _⟩ => absurd (hwrite.symm.trans h) (by simp)
    have hpast : ∀ q ∈ o :: (past ++ [r]), q ∈ o :: (past ++ r :: rest) := by
      intro q hq
      rw [List.append_cons]
      exact List.mem_append_left rest hq
    obtain ⟨d, direct, hopened, hsyncs⟩ :=
      exists_syncs_of_answered hdecide hrun (r := r) (by simp) (by simp [hok])
    have hanswer : ∀ q ∈ o :: (past ++ r :: rest), ∀ {c : SystemCall} {reply : c.Reply},
        .answered c reply ∈ q.history → ∃ m m', Machine.Answers Posix.Local m c reply m' := by
      intro q hq c reply h
      rw [← List.cons_append, ← hrun] at hq
      exact exists_answer_of_run hdecide hq h
    -- the file is not its own directory, so that syncing the one does not sync the other
    obtain ⟨_, _, hfile⟩ := hanswer o List.mem_cons_self hopened
    have hne : ∀ q ∈ o :: (past ++ [r]), ∀ x,
        .answered (.open_ p.directory .read) (.ok x) ∈ q.history → x ≠ d := by
      rintro q hq x hx rfl
      obtain ⟨_, _, hdirectory⟩ := hanswer q (hpast q hq) hx
      exact hfile.directory_ne (hdirectory.path_of_open.symm.trans hfile.path_of_open)
    rw [List.cons_append,
      entryStable_iff hopened ho (fun q hq => hsyncs q (hpast q hq)) hne, ← List.cons_append]
    constructor
    · rintro ⟨q, hq, htruncated⟩
      rcases List.mem_append.mp hq with hq | hq
      · exact ⟨q, hq, htruncated⟩
      · obtain rfl := List.mem_singleton.mp hq
        exact absurd htruncated hr
    · rintro ⟨q, hq, htruncated⟩
      exact ⟨q, List.mem_append_left _ hq, htruncated⟩

/-- What a session records that makes a journal at `j`, on a machine without files, and uses it. -/
def freshJournal (support : DurabilitySupport) (uses : List Use) :
    List (Record System (Machine × Unit)) :=
  run (fun _ => Posix.platform 0 .unhindered) (start (.ofTree .empty [], ()))
    (.openForWrite 0 ⟨[106]⟩ .durable 1 support :: uses.map Use.operation)

theorem unhindered_within_local : Policy.unhindered.Within Posix.Local := by
  intro c s
  cases c with
  | fileSystem d => exact (by decide : SyncPolicy.ofFileSystem 0xEF53 = .allowed)
  | _ => trivial

/-- A write after a truncation leaves bytes that can be found by their name. -/
theorem write_entryStable_truncated :
    Policy.unhindered.Within Posix.Local ∧
      let records := freshJournal .supported [.truncate 2, .write [120] 0]
      records.map (·.answer) = [some (.ok (.number 1)), some (.ok .done), some (.ok .done)] ∧
        EntryStable ⟨[106]⟩ (records.flatMap (·.history)) := by
  refine ⟨unhindered_within_local, by with_unfolding_all rfl, ?_⟩
  have hrun : freshJournal .supported [.truncate 2, .write [120] 0] = [_, _] ++ _ :: [] := rfl
  refine (write_entryStable_iff unhindered_within_local (.ofTree .empty []) () ⟨[106]⟩ 1 .supported
    [.truncate 2, .write [120] 0] hrun rfl (by with_unfolding_all rfl)).mpr ?_
  exact ⟨_, List.mem_cons_of_mem _ List.mem_cons_self, 2, rfl, rfl⟩

/-- A byte is written durably to a new journal, and no directory is synced by then: on a crash the
file that holds the byte has no name. -/
theorem write_not_entryStable :
    FileTree.empty.inspectEntry [] ⟨[106]⟩ = .error Errno.noEntry ∧
      Policy.unhindered.Within Posix.Local ∧
      ∀ support, let records := freshJournal support [.write [120] 0]
        records.map (·.answer) = [some (.ok (.number 1)), some (.ok .done)] ∧
          ¬ EntryStable ⟨[106]⟩ (records.flatMap (·.history)) := by
  refine ⟨rfl, unhindered_within_local, fun support => ⟨?_, ?_⟩⟩
  · cases support <;> with_unfolding_all rfl
  · rintro ⟨before, _, _, after, htrace, x, hx⟩
    have hsync : .answered (.sync x) (.ok ()) ∈
        (freshJournal support [.write [120] 0]).flatMap (·.history) := by
      rw [htrace]
      exact List.mem_append_right _ (List.mem_cons_of_mem _ (hx.subset (by simp)))
    have hrequest := mem_requestsOf.mpr ⟨_, hsync⟩
    have hrequests : requestsOf ((freshJournal support [.write [120] 0]).flatMap (·.history)) =
        let d : Descriptor := ⟨0, ⟨[106]⟩⟩
        [.open_ ⟨[106]⟩ (.write true (support = .supported)), .length d, .length d, .allocate d 1,
          .setLength d 1, .writeAt d [120] 0] := by
      cases support <;> with_unfolding_all rfl
    rw [hrequests] at hrequest
    exact absurd hrequest (by simp)

end Session

end WriteAhead
