/-
# Opening a journal, and rolling it back

Opening for writing takes its steps in a fixed order and stops at the first that fails.  Once the
file is open, a failure is followed by a cleanup, which unlinks an ephemeral file and closes the
descriptor; what the cleanup is answered decides only whether a failed unlink is reported in
place of the cause.

An opening takes no step twice, so that one reply to each step says all about a platform's
behaviour during it.  The plan of an opening is stated over such replies.
-/
import WriteAhead.Proofs.Release
import WriteAhead.Script.Platform

namespace WriteAhead

open Program

/-- One reply to each step. -/
abbrev Replies : Type := (s : Step) → s.Reply

/-- The error of a reply, if it is a failure. -/
def failureOf {ε α : Type} : Except ε α → Option ε
  | .ok _ => none
  | .error e => some e

namespace Replies

/-! ## What failed steps are reported as -/

/-- The error that the failure of a step of an opening is reported as, if the step fails. -/
def failure? (reply : Replies) : Step → Option JournalError
  | .openForWrite p flags => (failureOf (reply (.openForWrite p flags))).map (.opening p)
  | .finishUnbuffered d => (failureOf (reply (.finishUnbuffered d))).map .sync
  | .fileSize d => failureOf (reply (.fileSize d))
  | .resize d size => failureOf (reply (.resize d size))
  | .unlink p => (failureOf (reply (.unlink p))).map (.unlink p)
  | .close d => (failureOf (reply (.close d))).map .close
  | _ => none

/-- The raw code of a system's error, zero if there is none. -/
def systemCode (e : Option SystemError) : Int :=
  (e.bind SystemError.code?).getD 0

/-- The raw code that a step of an opening failed with: that of the system's error, or the detail
code where the platform answers with an error of its own. -/
def rawCode (reply : Replies) : Step → Int
  | .openForWrite p flags => systemCode (failureOf (reply (.openForWrite p flags)))
  | .finishUnbuffered d => systemCode (failureOf (reply (.finishUnbuffered d)))
  | .fileSize d => ((failureOf (reply (.fileSize d))).map JournalError.detailCode).getD 0
  | .resize d size => ((failureOf (reply (.resize d size))).map JournalError.detailCode).getD 0
  | .unlink p => systemCode (failureOf (reply (.unlink p)))
  | .close d => systemCode (failureOf (reply (.close d)))
  | _ => 0

/-- The step fails. -/
def fails (reply : Replies) (s : Step) : Bool := (reply.failure? s).isSome

/-- The error that a failure is reported as carries the code that the step failed with. -/
theorem detailCode_of_failure? (reply : Replies) {s : Step} {e : JournalError}
    (h : reply.failure? s = some e) : e.detailCode = reply.rawCode s := by
  cases s with
  | openForWrite p flags =>
    obtain ⟨cause, hcause, rfl⟩ := Option.map_eq_some_iff.mp h
    rw [rawCode, hcause]
    rfl
  | finishUnbuffered d =>
    obtain ⟨cause, hcause, rfl⟩ := Option.map_eq_some_iff.mp h
    rw [rawCode, hcause]
    rfl
  | fileSize d =>
    rw [rawCode, show failureOf (reply (.fileSize d)) = some e from h]
    rfl
  | resize d size =>
    rw [rawCode, show failureOf (reply (.resize d size)) = some e from h]
    rfl
  | unlink p =>
    obtain ⟨cause, hcause, rfl⟩ := Option.map_eq_some_iff.mp h
    rw [rawCode, hcause]
    rfl
  | close d =>
    obtain ⟨cause, hcause, rfl⟩ := Option.map_eq_some_iff.mp h
    rw [rawCode, hcause]
    rfl
  | _ => exact absurd h (by simp [failure?])

/-! ## The plan of an opening -/

/-- The file is reported to be shorter than `size`. -/
def reportsLess (reply : Replies) (d : Descriptor) (size : UInt64) : Bool :=
  match reply (.fileSize d) with
  | .ok current => decide (current < size.toNat)
  | .error _ => false

/-- The steps that make a file long enough: its size is asked for, and if it is strictly shorter
it is resized. -/
def growth (reply : Replies) (size : UInt64) (d : Descriptor) : List Step :=
  .fileSize d :: if reply.reportsLess d size then [.resize d size] else []

/-- The steps that make an open file ready: unbuffered access is finished where it was asked for,
and the file is grown. -/
def preparation (reply : Replies) (mode : JournalMode) (support : DurabilitySupport)
    (size : UInt64) (d : Descriptor) : List Step :=
  (if mode = .durable ∧ support = .supported then [.finishUnbuffered d] else []) ++
    reply.growth size d

/-- The steps up to the first that fails, and that one. -/
def attempted (reply : Replies) : List Step → List Step
  | [] => []
  | s :: rest => s :: if reply.fails s then [] else attempted reply rest

/-- The first step that fails. -/
def culprit? (reply : Replies) (steps : List Step) : Option Step :=
  steps.find? reply.fails

/-- The size that a prepared file has. -/
def preparedSize (reply : Replies) (d : Descriptor) (size : UInt64) : Nat :=
  match reply (.fileSize d) with
  | .ok current => max current size.toNat
  | .error _ => 0

/-- What preparing a file ends in, if `steps` are the steps to be taken. -/
def prepared (reply : Replies) (steps : List Step) (size : Nat) : Except JournalError Nat :=
  match (reply.culprit? steps).bind reply.failure? with
  | none => .ok size
  | some e => .error e

theorem culprit?_cons (reply : Replies) (s : Step) (rest : List Step) :
    reply.culprit? (s :: rest) = if reply.fails s then some s else reply.culprit? rest := by
  unfold culprit?
  rw [List.find?_cons]
  cases reply.fails s <;> rfl

/-- Without a culprit all steps are attempted. -/
theorem attempted_eq_self (reply : Replies) {steps : List Step}
    (h : reply.culprit? steps = none) : reply.attempted steps = steps := by
  induction steps with
  | nil => rfl
  | cons s rest ih =>
    rw [culprit?_cons] at h
    split at h
    · exact absurd h (by simp)
    · next hs => rw [attempted, if_neg hs, ih h]

/-- A culprit failed with an error. -/
theorem exists_failure_of_culprit? (reply : Replies) {steps : List Step} {s : Step}
    (h : reply.culprit? steps = some s) : ∃ e, reply.failure? s = some e := by
  have hs : reply.fails s = true := by
    unfold culprit? at h
    exact List.find?_some h
  exact Option.isSome_iff_exists.mp hs

theorem fails_of_failure? (reply : Replies) {s : Step} {e : JournalError}
    (h : reply.failure? s = some e) : reply.fails s = true := by
  rw [fails, h]
  rfl

theorem fails_eq_false (reply : Replies) {s : Step} (h : reply.failure? s = none) :
    reply.fails s = false := by
  rw [fails, h]
  rfl

theorem attempted_cons_of_failure? (reply : Replies) {s : Step} {e : JournalError}
    (rest : List Step) (h : reply.failure? s = some e) : reply.attempted (s :: rest) = [s] := by
  rw [attempted, if_pos (reply.fails_of_failure? h)]

theorem attempted_cons_of_none (reply : Replies) {s : Step} (rest : List Step)
    (h : reply.failure? s = none) :
    reply.attempted (s :: rest) = s :: reply.attempted rest := by
  rw [attempted, if_neg (by simp [reply.fails_eq_false h])]

/-- A step that fails ends a preparation. -/
theorem prepared_cons_of_failure? (reply : Replies) {s : Step} {e : JournalError}
    (rest : List Step) (size : Nat) (h : reply.failure? s = some e) :
    reply.prepared (s :: rest) size = .error e := by
  rw [prepared, culprit?_cons, if_pos (reply.fails_of_failure? h), Option.bind_some, h]

/-- A step that does not fail leaves a preparation to the rest. -/
theorem prepared_cons_of_none (reply : Replies) {s : Step} (rest : List Step) (size : Nat)
    (h : reply.failure? s = none) :
    reply.prepared (s :: rest) size = reply.prepared rest size := by
  rw [prepared, prepared, culprit?_cons, if_neg (by simp [reply.fails_eq_false h])]

@[simp] theorem attempted_nil (reply : Replies) : reply.attempted [] = [] := rfl

@[simp] theorem prepared_nil (reply : Replies) (size : Nat) :
    reply.prepared [] size = .ok size := rfl

end Replies

/-- The journal is removed by whoever releases it. -/
def mustUnlink (t : Features) (mode : JournalMode) : Prop :=
  mode = .pureMemory ∧ t.deletesOnClose = false

instance (t : Features) (mode : JournalMode) : Decidable (mustUnlink t mode) :=
  inferInstanceAs (Decidable (_ ∧ _))

/-- The steps that clean up after a failure. -/
def cleanup (t : Features) (mode : JournalMode) (path : Path) (d : Descriptor) : List Step :=
  (if mustUnlink t mode then [.unlink path] else []) ++ [.close d]

/-- The step whose failure is reported: the unlink of the cleanup if it fails, and otherwise the
one that failed first. -/
def Replies.reported (reply : Replies) (t : Features) (mode : JournalMode) (path : Path)
    (culprit : Step) : Step :=
  if mustUnlink t mode ∧ reply.fails (.unlink path) then .unlink path else culprit

/-- An opening that makes these requests and ends in this outcome is the one that the replies
lead to: if the file cannot be opened, nothing else is done; a prepared file is handed out; and a
file that cannot be prepared is cleaned up after. -/
def Replies.Opens (reply : Replies) (t : Features) (path : Path) (mode : JournalMode)
    (size : UInt64) (support : DurabilitySupport) (requests : List Step)
    (outcome : Outcome (Handle × Nat)) : Prop :=
  let opening := Step.openForWrite path (OpenFlags.forJournal mode support)
  match reply (.openForWrite path (OpenFlags.forJournal mode support)) with
  | .error e =>
    requests = [opening] ∧ outcome = .error (.error (.opening path e)) ∧
      (JournalError.opening path e).detailCode = e.code?.getD 0
  | .ok d =>
    let steps := reply.preparation mode support size d
    match reply.culprit? steps with
    | none =>
      requests = opening :: steps ∧
        outcome = .ok (⟨some d, some path, decide (mode = .pureMemory)⟩, reply.preparedSize d size)
    | some culprit =>
      requests = opening :: reply.attempted steps ++ cleanup t mode path d ∧
        ∃ e, reply.failure? (reply.reported t mode path culprit) = some e ∧
          outcome = .error (.error e) ∧
          e.detailCode = reply.rawCode (reply.reported t mode path culprit)

namespace Journal

/-- The handle of a journal that was opened for writing as `d`. -/
def writer (path : Path) (mode : JournalMode) (support : DurabilitySupport) (d : Descriptor) :
    Handle :=
  ⟨some d, some path, (OpenFlags.forJournal mode support).deleteOnClose⟩

theorem writer_eq (path : Path) (mode : JournalMode) (support : DurabilitySupport)
    (d : Descriptor) :
    writer path mode support d = ⟨some d, some path, decide (mode = .pureMemory)⟩ := by
  unfold writer
  rw [OpenFlags.deleteOnClose_forJournal]

theorem unlinkPath?_writer (t : Features) (path : Path) (mode : JournalMode)
    (support : DurabilitySupport) (d : Descriptor) :
    (writer path mode support d).unlinkPath? t = if mustUnlink t mode then some path else none := by
  rw [writer_eq]
  unfold Handle.unlinkPath? mustUnlink
  by_cases hm : mode = .pureMemory <;> simp [hm]

theorem releaseSteps_writer (t : Features) (path : Path) (mode : JournalMode)
    (support : DurabilitySupport) (d : Descriptor) :
    (writer path mode support d).releaseSteps t d = cleanup t mode path d := by
  unfold Handle.releaseSteps cleanup
  rw [unlinkPath?_writer]
  split <;> rfl

/-! ## No step is taken twice -/

/-- The place of a step in an opening. -/
def place : Step → Nat
  | .openForWrite _ _ => 0
  | .finishUnbuffered _ => 1
  | .fileSize _ => 2
  | .resize _ _ => 3
  | .unlink _ => 4
  | .close _ => 5
  | _ => 6

theorem climbs_finishUnbuffered (flags : OpenFlags) (d : Descriptor) :
    (finishUnbuffered flags d).Climbs place 1 2 := by
  unfold finishUnbuffered
  split
  · simp only [Step.take, ask_bind, done_bind, climbs_ask, place]
    refine ⟨Nat.le_refl 1, Nat.lt_succ_self 1, fun r => ?_⟩
    rcases r with e | u <;> simp
  · simp

theorem climbs_grow (d : Descriptor) (size : UInt64) : (grow d size).Climbs place 2 4 := by
  simp only [grow, Step.take, ask_bind, done_bind, climbs_ask, place]
  refine ⟨Nat.le_refl 2, by omega, fun r => ?_⟩
  rcases r with e | current
  · simp
  · simp only
    split
    · simp only [climbs_ask, place]
      refine ⟨Nat.le_refl 3, Nat.lt_succ_self 3, fun r => ?_⟩
      rcases r with e | u <;> simp
    · simp

theorem climbs_prepare (flags : OpenFlags) (d : Descriptor) (size : UInt64) :
    (prepare flags d size).Climbs place 1 4 := by
  unfold prepare
  refine Climbs.bind (climbs_finishUnbuffered flags d) (by omega) fun r => ?_
  rcases r with e | u
  · simp
  · exact climbs_grow d size

theorem climbs_unlinkIfAny (p : Option Path) : (Handle.unlinkIfAny p).Climbs place 4 5 := by
  cases p with
  | none => simp [Handle.unlinkIfAny]
  | some p =>
    simp only [Handle.unlinkIfAny, Step.take, ask_bind, done_bind, climbs_ask, place]
    refine ⟨Nat.le_refl 4, Nat.lt_succ_self 4, fun r => ?_⟩
    rcases r with e | u <;> simp

theorem climbs_closeAfter (d : Descriptor) (unlinked : Except JournalError Unit) :
    (Handle.closeAfter d unlinked).Climbs place 5 6 := by
  simp only [Handle.closeAfter, Step.take, ask_bind, done_bind, climbs_ask, place]
  refine ⟨Nat.le_refl 5, Nat.lt_succ_self 5, fun r => ?_⟩
  rcases r with e | u
  · rcases unlinked with first | u <;> simp [emit]
  · simp

theorem climbs_release (t : Features) (h : Handle) : (h.release t).Climbs place 4 6 := by
  cases hd : h.descriptor with
  | none =>
    rw [Handle.release_of_descriptor_eq_none t h hd]
    simp
  | some d =>
    rw [Handle.release_of_descriptor_eq_some t h hd]
    refine Climbs.bind (climbs_unlinkIfAny _) (by omega) fun unlinked => ?_
    refine Climbs.bind (climbs_closeAfter d unlinked) (Nat.le_refl 6) fun result => ?_
    simp

theorem climbs_abort (t : Features) (h : Handle) (cause : JournalError) :
    (h.abort t cause).Climbs place 4 6 := by
  rw [Handle.abort_eq]
  refine Climbs.bind (climbs_release t h) (Nat.le_refl 6) fun r => ?_
  obtain ⟨e | u, h'⟩ := r
  · cases e <;> simp [Handle.rollbackError, emit]
  · simp [Handle.rollbackError]

/-- An opening takes no step twice. -/
theorem climbs_openForWrite (t : Features) (path : Path) (mode : JournalMode) (size : UInt64)
    (support : DurabilitySupport) :
    (openForWrite t path mode size support).Climbs place 0 6 := by
  unfold openForWrite
  split
  · simp
  · simp only [Step.take, ask_bind, done_bind, climbs_ask, place]
    refine ⟨Nat.le_refl 0, by omega, fun r => ?_⟩
    rcases r with e | d
    · simp
    · refine Climbs.bind (climbs_prepare _ d size) (by omega) fun r => ?_
      rcases r with cause | n
      · refine Climbs.bind (climbs_abort t _ cause) (Nat.le_refl 6) fun e => ?_
        simp
      · simp [emit]

/-! ## Opening against fixed replies -/

theorem run_grow_fixed (reply : Replies) (size : UInt64) (d : Descriptor) (w : Unit) :
    ((grow d size).run (fixed reply) w).requests = reply.attempted (reply.growth size d) ∧
      ((grow d size).run (fixed reply) w).value =
        reply.prepared (reply.growth size d) (reply.preparedSize d size) := by
  unfold Replies.growth Replies.reportsLess Replies.preparedSize grow Step.take
  obtain ⟨sized, hsize⟩ : ∃ sized, reply (.fileSize d) = sized := ⟨_, rfl⟩
  obtain ⟨resized, hresize⟩ : ∃ resized, reply (.resize d size) = resized := ⟨_, rfl⟩
  cases sized with
  | error e =>
    have hfails : reply.failure? (.fileSize d) = some e := by
      simp [Replies.failure?, hsize, failureOf]
    simp [hsize, reply.attempted_cons_of_failure? _ hfails,
      reply.prepared_cons_of_failure? _ _ hfails]
  | ok current =>
    have hpasses : reply.failure? (.fileSize d) = none := by
      simp [Replies.failure?, hsize, failureOf]
    by_cases hless : current < size.toNat
    · have hmax : max current size.toNat = size.toNat := by omega
      cases resized with
      | error e =>
        have hfails : reply.failure? (.resize d size) = some e := by
          simp [Replies.failure?, hresize, failureOf]
        simp [hsize, hresize, hless, reply.attempted_cons_of_none _ hpasses,
          reply.prepared_cons_of_none _ _ hpasses, reply.attempted_cons_of_failure? _ hfails,
          reply.prepared_cons_of_failure? _ _ hfails]
      | ok u =>
        have hpasses' : reply.failure? (.resize d size) = none := by
          simp [Replies.failure?, hresize, failureOf]
        simp [hsize, hresize, hless, hmax, reply.attempted_cons_of_none _ hpasses,
          reply.prepared_cons_of_none _ _ hpasses, reply.attempted_cons_of_none _ hpasses',
          reply.prepared_cons_of_none _ _ hpasses']
    · have hmax : max current size.toNat = current := by omega
      simp [hsize, hless, hmax, reply.attempted_cons_of_none _ hpasses,
        reply.prepared_cons_of_none _ _ hpasses]

theorem run_prepare_fixed (reply : Replies) (mode : JournalMode) (support : DurabilitySupport)
    (size : UInt64) (d : Descriptor) (w : Unit) :
    ((prepare (OpenFlags.forJournal mode support) d size).run (fixed reply) w).requests =
        reply.attempted (reply.preparation mode support size d) ∧
      ((prepare (OpenFlags.forJournal mode support) d size).run (fixed reply) w).value =
        reply.prepared (reply.preparation mode support size d) (reply.preparedSize d size) := by
  have hunbuffered := OpenFlags.unbuffered_forJournal mode support
  have hgrow := run_grow_fixed reply size d
  unfold prepare finishUnbuffered Replies.preparation
  rw [hunbuffered]
  by_cases hm : mode = .durable ∧ support = .supported
  · rw [if_pos hm, decide_eq_true hm, if_pos rfl]
    simp only [Step.take, ask_bind, done_bind, run_ask, fixed_apply, Run.requests_after,
      Run.value_after, List.singleton_append, requestsOf_answered, requestsOf_nil]
    cases hfinish : reply (.finishUnbuffered d) with
    | error e =>
      have hfails : reply.failure? (.finishUnbuffered d) = some (.sync e) := by
        simp [Replies.failure?, hfinish, failureOf]
      simp [reply.attempted_cons_of_failure? _ hfails, reply.prepared_cons_of_failure? _ _ hfails]
    | ok u =>
      have hpasses : reply.failure? (.finishUnbuffered d) = none := by
        simp [Replies.failure?, hfinish, failureOf]
      simp [reply.attempted_cons_of_none _ hpasses, reply.prepared_cons_of_none _ _ hpasses, hgrow]
  · rw [if_neg hm, decide_eq_false hm]
    simpa using hgrow w

/-- What a rollback reports is the failure of the step that is to be reported. -/
theorem failure?_reported (reply : Replies) (t : Features) (path : Path) (mode : JournalMode)
    (support : DurabilitySupport) (d : Descriptor) {culprit : Step} {cause : JournalError}
    (hcause : reply.failure? culprit = some cause) :
    reply.failure? (reply.reported t mode path culprit) =
      some ((writer path mode support d).rollbackReport t reply cause) := by
  unfold Replies.reported Handle.rollbackReport
  rw [unlinkPath?_writer]
  by_cases hm : mustUnlink t mode
  · cases hunlink : reply (.unlink path) with
    | error e =>
      have hfails : reply.failure? (.unlink path) = some (.unlink path e) := by
        simp [Replies.failure?, hunlink, failureOf]
      rw [if_pos ⟨hm, reply.fails_of_failure? hfails⟩, hfails, if_pos hm]
      simp only [hunlink]
    | ok u =>
      have hpasses : reply.failure? (.unlink path) = none := by
        simp [Replies.failure?, hunlink, failureOf]
      rw [if_neg (by simp [reply.fails_eq_false hpasses]), hcause, if_pos hm]
      simp only [hunlink]
  · rw [if_neg (fun h => hm h.1), if_neg hm]
    exact hcause

theorem opens_fixed (reply : Replies) (t : Features) (path : Path) (mode : JournalMode)
    {size : UInt64} (hsize : 0 < size) (support : DurabilitySupport) (w : Unit) :
    reply.Opens t path mode size support
      ((openForWrite t path mode size support).run (fixed reply) w).requests
      ((openForWrite t path mode size support).run (fixed reply) w).value := by
  have hne : size ≠ 0 := fun h => absurd hsize (by simp [h])
  unfold openForWrite Replies.Opens Step.take
  rw [if_neg hne]
  cases hopen : reply (.openForWrite path (OpenFlags.forJournal mode support)) with
  | error e => simp [hopen, JournalError.detailCode]
  | ok d =>
    simp only [ask_bind, done_bind, run_ask, fixed_apply, hopen, run_bind, Run.requests_after,
      Run.value_after, requestsOf_answered, requestsOf_nil]
    obtain ⟨hrequests, hvalue⟩ := run_prepare_fixed reply mode support size d w
    have hhistory : requestsOf ((prepare (OpenFlags.forJournal mode support) d size).run
        (fixed reply) w).history = reply.attempted (reply.preparation mode support size d) :=
      hrequests
    rw [hvalue, hhistory]
    unfold Replies.prepared
    cases hculprit : reply.culprit? (reply.preparation mode support size d) with
    | none =>
      have hwriter := writer_eq path mode support d
      simp [reply.attempted_eq_self hculprit, emit, ← hwriter, writer]
    | some culprit =>
      -- the culprit's error is the cause that the rollback starts from
      obtain ⟨cause, hcause⟩ := reply.exists_failure_of_culprit? hculprit
      have hreport := failure?_reported reply t path mode support d hcause
      have hcode := reply.detailCode_of_failure? hreport
      have hwriter : (⟨some d, some path, (OpenFlags.forJournal mode support).deleteOnClose⟩ :
          Handle) = writer path mode support d := rfl
      have hcleanup (w : Unit) : requestsOf (((writer path mode support d).abort t cause).run
          (fixed reply) w).history = cleanup t mode path d := by
        rw [← releaseSteps_writer t path mode support d]
        exact Handle.requests_abort t _ rfl cause (fixed reply) w
      simp only [Option.bind_some, hcause, hwriter, run_bind, Run.requests_after, Run.value_after,
        hcleanup, Handle.value_abort_fixed t (writer path mode support d) rfl reply cause]
      refine ⟨?_, _, hreport, ?_, hcode⟩
      · simp
      · simp

/-- **Opening and rolling back.**  Against every platform, an opening takes the steps that the
platform's replies lead to, in their order and none of them twice, and ends as they lead to. -/
theorem openForWrite_rolls_back {W : Type} (t : Features) (handler : Handler Steps W) (w : W)
    (path : Path) (mode : JournalMode) (size : UInt64) (hsize : 0 < size)
    (support : DurabilitySupport) :
    ∃ reply : Replies,
      Agrees reply ((openForWrite t path mode size support).run handler w).history ∧
        reply.Opens t path mode size support
          ((openForWrite t path mode size support).run handler w).requests
          ((openForWrite t path mode size support).run handler w).value := by
  obtain ⟨reply, hreply⟩ :=
    exists_fixed_replies (climbs_openForWrite t path mode size support) handler w
  obtain ⟨hvalue, hhistory⟩ := run_eq_run_fixed handler reply _ w hreply
  refine ⟨reply, hreply, ?_⟩
  rw [hvalue, Run.requests, hhistory]
  exact opens_fixed reply t path mode hsize support ()

/-- The replies of a platform that opens files and fails at everything else. -/
def refusal : Replies
  | .openForWrite p _ => .ok ⟨3, p⟩
  | s => ScriptedPlatform.failureReply false (.code 5) s

/-- An ephemeral journal whose size query, unlink and close all fail: the unlink is reported. -/
theorem openForWrite_rolls_back_refusal :
    (0 : UInt64) < 4096 ∧
      ((openForWrite .posix ⟨[0x6A]⟩ .pureMemory 4096 .supported).run (fixed refusal) ()).value =
        .error (.error (.unlink ⟨[0x6A]⟩ (.code 5))) ∧
      ∃ reply : Replies,
        Agrees reply
            ((openForWrite .posix ⟨[0x6A]⟩ .pureMemory 4096 .supported).run
              (fixed refusal) ()).history ∧
          reply.Opens .posix ⟨[0x6A]⟩ .pureMemory 4096 .supported
            ((openForWrite .posix ⟨[0x6A]⟩ .pureMemory 4096 .supported).run
              (fixed refusal) ()).requests
            ((openForWrite .posix ⟨[0x6A]⟩ .pureMemory 4096 .supported).run
              (fixed refusal) ()).value :=
  ⟨by decide, rfl, openForWrite_rolls_back .posix (fixed refusal) () ⟨[0x6A]⟩ .pureMemory 4096
    (by decide) .supported⟩

end Journal

end WriteAhead
