/-
# The verdict and the cleanup of the self-test

Five steps of the self-test can fail, and only two of them decide its verdict: the open, and the
reservation that follows it.  What was opened is closed and removed whatever came before, and a
path that could not be opened is removed unless an entry was seen there.

* `Probe.accounted` : the verdict and the steps of a self-test, on every platform;
* `Posix.ends_probe` : what a self-test leaves of a machine.
-/
import WriteAhead.Probe
import WriteAhead.Proofs.Growth
import WriteAhead.Proofs.Trials
import WriteAhead.Proofs.Unlinking

namespace WriteAhead

open Program

namespace Probe

/-! ## No step is taken twice -/

/-- The place of a step in a self-test. -/
def place : Step → Nat
  | .entryExists _ => 0
  | .openForWrite _ _ => 1
  | .preallocate _ _ => 2
  | .close _ => 3
  | .unlink _ => 4
  | _ => 5

theorem climbs_remove (path : Path) : (remove path).Climbs place 4 5 := by
  simp only [remove, Step.take, ask_bind, done_bind, climbs_ask, place]
  refine ⟨Nat.le_refl 4, Nat.lt_succ_self 4, fun r => ?_⟩
  rcases r with e | u
  · dsimp only
    split <;> simp [emit]
  · simp

theorem climbs_useFile (t : Features) (path : Path) (d : Descriptor) :
    (useFile t path d).Climbs place 2 5 := by
  simp only [useFile, Step.take, ask_bind, done_bind, climbs_ask, place]
  refine ⟨Nat.le_refl 2, by omega, fun allocated => ⟨Nat.le_refl 3, by omega, fun closed => ?_⟩⟩
  -- however the close ended, the removal is next
  rcases closed with e | u
  · simp only [emit, note_bind, done_bind, climbs_note]
    refine Climbs.bind (climbs_remove path) (Nat.le_refl 5) fun _ => ?_
    rcases allocated with e | u <;> simp
  · refine Climbs.bind (climbs_remove path) (Nat.le_refl 5) fun _ => ?_
    rcases allocated with e | u <;> simp

/-- A self-test takes no step twice. -/
theorem climbs_run (t : Features) (path : Path) : (run t path).Climbs place 0 5 := by
  have hattempt : (attempt t path).Climbs place 0 5 := by
    simp only [attempt, Step.take, ask_bind, done_bind, climbs_ask, place]
    refine ⟨Nat.le_refl 0, by omega, fun existed => ⟨Nat.le_refl 1, by omega, fun r => ?_⟩⟩
    rcases r with e | d
    · dsimp only
      split
      · refine Climbs.bind ((climbs_remove path).mono_low (by omega)) (Nat.le_refl 5) fun _ => ?_
        simp
      · simp
    · exact climbs_useFile t path d
  refine Climbs.bind hattempt (Nat.le_refl 5) fun r => ?_
  rcases r with e | u <;> simp [emit]

/-! ## What is done with the test file -/

/-- What a self-test concludes from the answer to its reservation. -/
def conclusion (t : Features) (path : Path) :
    Except SystemError Unit → Except JournalError Unit
  | .ok () => .ok ()
  | .error e => .error (allocationError t path e)

section

variable {t : Features} {path : Path} {e e' : SystemError}

theorem allocationError_eq_durabilityNotSupported_iff :
    allocationError t path e = .durabilityNotSupported path e' ↔
      t.isInvalidArgument e' = true ∧ e' = e := by
  unfold allocationError
  split
  · next hinvalid =>
    constructor
    · rintro ⟨⟩
      exact ⟨hinvalid, rfl⟩
    · rintro ⟨-, rfl⟩
      rfl
  · next hvalid =>
    constructor
    · exact fun h => absurd h (by simp)
    · rintro ⟨hinvalid, rfl⟩
      exact absurd hinvalid hvalid

theorem allocationError_eq_allocateSpace_iff :
    allocationError t path e = .allocateSpace size e' ↔
      t.isInvalidArgument e' = false ∧ e' = e := by
  unfold allocationError
  split
  · next hinvalid =>
    constructor
    · exact fun h => absurd h (by simp)
    · rintro ⟨hvalid, rfl⟩
      exact absurd (hinvalid.symm.trans hvalid) (by simp)
  · next hvalid =>
    constructor
    · rintro ⟨⟩
      exact ⟨by simpa using hvalid, rfl⟩
    · rintro ⟨-, rfl⟩
      rfl

theorem allocationError_ne_opening : allocationError t path e ≠ .opening path e' := by
  unfold allocationError
  split <;> simp

theorem allocationError_cases (t : Features) (path : Path) (e : SystemError) :
    (allocationError t path e = .durabilityNotSupported path e ∨
      allocationError t path e = .allocateSpace size e) ∧
      (allocationError t path e).detailCode = e.code?.getD 0 := by
  unfold allocationError
  split
  · exact ⟨.inl rfl, rfl⟩
  · exact ⟨.inr rfl, rfl⟩

end

/-- A close that fails is noted. -/
def noteClose (path : Path) : Except SystemError Unit → StepProgram Unit
  | .ok () => .done ()
  | .error e => emit (.probeCloseFailed path e)

/-- The removal comes last, and the conclusion was there before. -/
theorem useFile_eq (t : Features) (path : Path) (d : Descriptor) :
    useFile t path d = (Step.preallocate d size).take >>= fun allocated =>
      (Step.close d).take >>= fun closed =>
        noteClose path closed >>= fun _ =>
          remove path >>= fun _ => .done (conclusion t path allocated) := by
  unfold useFile
  congr
  funext allocated
  congr
  funext closed
  rcases allocated with e | u <;> rcases closed with e' | u' <;> rfl

/-! ## A self-test against fixed replies -/

/-- The steps that a self-test takes. -/
def steps (reply : Replies) (path : Path) : List Step :=
  .entryExists path :: .openForWrite path OpenFlags.durable ::
    match reply (.openForWrite path OpenFlags.durable) with
    | .ok d => [.preallocate d size, .close d, .unlink path]
    | .error _ => if reply (.entryExists path) then [] else [.unlink path]

/-- The verdict of a self-test, which the open and the reservation decide. -/
def verdict (t : Features) (reply : Replies) (path : Path) : Except JournalError Unit :=
  match reply (.openForWrite path OpenFlags.durable) with
  | .error e => .error (.opening path e)
  | .ok d => conclusion t path (reply (.preallocate d size))

theorem run_remove_fixed (reply : Replies) (path : Path) (w : Unit) :
    requestsOf ((remove path).run (fixed reply) w).history = [.unlink path] := by
  simp only [remove, Step.take, ask_bind, done_bind, run_ask, fixed_apply, Run.history_after,
    requestsOf_append, requestsOf_answered, requestsOf_nil]
  cases reply (.unlink path) with
  | ok u => rfl
  | error e =>
    dsimp only
    split <;> rfl

theorem run_useFile_fixed (t : Features) (reply : Replies) (path : Path) (d : Descriptor)
    (w : Unit) :
    ((useFile t path d).run (fixed reply) w).requests =
        [.preallocate d size, .close d, .unlink path] ∧
      ((useFile t path d).run (fixed reply) w).value =
        conclusion t path (reply (.preallocate d size)) := by
  have hremove := run_remove_fixed reply path
  rw [useFile_eq]
  simp only [Step.take, ask_bind, done_bind, run_ask, fixed_apply, Run.requests_after,
    Run.value_after, requestsOf_answered, requestsOf_nil]
  cases reply (.close d) <;> simp [noteClose, emit, run_bind, hremove]

theorem run_fixed (t : Features) (reply : Replies) (path : Path) (w : Unit) :
    ((run t path).run (fixed reply) w).requests = steps reply path ∧
      ((run t path).run (fixed reply) w).value = verdict t reply path := by
  have hremove := run_remove_fixed reply path
  have hattempt : ((attempt t path).run (fixed reply) w).requests = steps reply path ∧
      ((attempt t path).run (fixed reply) w).value = verdict t reply path := by
    simp only [attempt, steps, verdict, Step.take, ask_bind, done_bind, run_ask, fixed_apply,
      Run.requests_after, Run.value_after, requestsOf_answered, requestsOf_nil]
    cases hopen : reply (.openForWrite path OpenFlags.durable) with
    | error e =>
      obtain ⟨existed, hexisted⟩ : ∃ existed : Bool, reply (.entryExists path) = existed :=
        ⟨_, rfl⟩
      cases existed <;> simp [hexisted, run_bind, hremove]
    | ok d =>
      obtain ⟨hrequests, hvalue⟩ := run_useFile_fixed t reply path d w
      exact ⟨by rw [hrequests]; rfl, hvalue⟩
  obtain ⟨hrequests, hvalue⟩ := hattempt
  unfold run
  rw [requests_run_bind, run_bind, Run.value_after, hrequests, hvalue]
  cases verdict t reply path with
  | ok u => simp [emit]
  | error e => simp [emit]

/-! ## The verdict and the steps on every platform -/

/-- The verdict of a self-test is decided by its open and its reservation, and carries the error
of the one that failed with its raw code.  What could be opened is closed and removed, once each
and in this order; what could not is removed unless an entry was seen there before. -/
structure Accounted {W : Type} (t : Features) (path : Path)
    (r : Run Steps Event W (Except JournalError Unit)) : Prop where
  ok_iff : r.value = .ok () ↔
    ∃ d, .answered (.openForWrite path OpenFlags.durable) (.ok d) ∈ r.history ∧
      .answered (.preallocate d size) (.ok ()) ∈ r.history
  opening_iff : ∀ e, r.value = .error (.opening path e) ↔
    .answered (.openForWrite path OpenFlags.durable) (.error e) ∈ r.history
  durabilityNotSupported_iff : ∀ e, r.value = .error (.durabilityNotSupported path e) ↔
    t.isInvalidArgument e = true ∧
      ∃ d, .answered (.openForWrite path OpenFlags.durable) (.ok d) ∈ r.history ∧
        .answered (.preallocate d size) (.error e) ∈ r.history
  allocateSpace_iff : ∀ e, r.value = .error (.allocateSpace size e) ↔
    t.isInvalidArgument e = false ∧
      ∃ d, .answered (.openForWrite path OpenFlags.durable) (.ok d) ∈ r.history ∧
        .answered (.preallocate d size) (.error e) ∈ r.history
  error : ∀ f, r.value = .error f → ∃ e : SystemError,
    (f = .opening path e ∨ f = .durabilityNotSupported path e ∨ f = .allocateSpace size e) ∧
      f.detailCode = e.code?.getD 0
  opened : ∀ d, .answered (.openForWrite path OpenFlags.durable) (.ok d) ∈ r.history →
    r.requests = [.entryExists path, .openForWrite path OpenFlags.durable, .preallocate d size,
      .close d, .unlink path]
  refused : ∀ e existed, .answered (.openForWrite path OpenFlags.durable) (.error e) ∈ r.history →
    .answered (.entryExists path) existed ∈ r.history →
      r.requests = [.entryExists path, .openForWrite path OpenFlags.durable] ++
        if existed then [] else [.unlink path]

/-- The run is the one that the replies lead to. -/
structure Follows {W : Type} (reply : Replies) (t : Features) (path : Path)
    (r : Run Steps Event W (Except JournalError Unit)) : Prop where
  value : r.value = verdict t reply path
  requests : r.requests = steps reply path
  answered : ∀ (q : Step) (x : q.Reply), .answered q x ∈ r.history ↔
    q ∈ steps reply path ∧ x = reply q

namespace Follows

variable {W : Type} {reply : Replies} {t : Features} {path : Path}
  {r : Run Steps Event W (Except JournalError Unit)} {d : Descriptor} {e : SystemError}

theorem answered_open (h : Follows reply t path r) (x : Except SystemError Descriptor) :
    .answered (.openForWrite path OpenFlags.durable) x ∈ r.history ↔
      x = reply (.openForWrite path OpenFlags.durable) :=
  (h.answered (.openForWrite path OpenFlags.durable) x).trans (and_iff_right (by simp [steps]))

theorem answered_preallocate (h : Follows reply t path r)
    (hopen : reply (.openForWrite path OpenFlags.durable) = .ok d) (x : Except SystemError Unit) :
    .answered (.preallocate d size) x ∈ r.history ↔ x = reply (.preallocate d size) :=
  (h.answered (.preallocate d size) x).trans (and_iff_right (by simp [steps, hopen]))

theorem requests_of_opened (h : Follows reply t path r)
    (hd : .answered (.openForWrite path OpenFlags.durable) (.ok d) ∈ r.history) :
    r.requests = [.entryExists path, .openForWrite path OpenFlags.durable, .preallocate d size,
      .close d, .unlink path] := by
  have hopen : reply (.openForWrite path OpenFlags.durable) = .ok d :=
    ((h.answered_open _).mp hd).symm
  rw [h.requests, steps, hopen]

theorem accounted_of_refused (h : Follows reply t path r)
    (hopen : reply (.openForWrite path OpenFlags.durable) = .error e) : Accounted t path r := by
  have hvalue : r.value = .error (.opening path e) := by
    rw [h.value, verdict, hopen]
  have hopened := h.answered_open
  refine ⟨by simp [hvalue, hopened, hopen], by simp [hvalue, hopened, hopen, eq_comm],
    by simp [hvalue, hopened, hopen], by simp [hvalue, hopened, hopen], ?_,
    fun d hd => h.requests_of_opened hd, ?_⟩
  · intro f hf
    rw [hvalue] at hf
    obtain rfl := Except.error.inj hf
    exact ⟨e, .inl rfl, rfl⟩
  · intro e' existed _ hexisted
    obtain ⟨-, rfl⟩ := (h.answered _ _).mp hexisted
    rw [h.requests, steps, hopen]
    rfl

theorem accounted_of_reserved (h : Follows reply t path r)
    (hopen : reply (.openForWrite path OpenFlags.durable) = .ok d)
    (hreserved : reply (.preallocate d size) = .ok ()) : Accounted t path r := by
  have hvalue : r.value = .ok () := by
    simp [h.value, verdict, hopen, hreserved, conclusion]
  have hopened := h.answered_open
  have hallocated := h.answered_preallocate hopen
  exact ⟨by simp [hvalue, hopened, hopen, hallocated, hreserved],
    by simp [hvalue, hopened, hopen], by simp [hvalue, hopened, hopen, hallocated, hreserved],
    by simp [hvalue, hopened, hopen, hallocated, hreserved], by simp [hvalue],
    fun d hd => h.requests_of_opened hd, by simp [hopened, hopen]⟩

theorem accounted_of_not_reserved (h : Follows reply t path r)
    (hopen : reply (.openForWrite path OpenFlags.durable) = .ok d)
    (hreserved : reply (.preallocate d size) = .error e) : Accounted t path r := by
  have hvalue : r.value = .error (allocationError t path e) := by
    simp [h.value, verdict, hopen, hreserved, conclusion]
  have hopened := h.answered_open
  have hallocated := h.answered_preallocate hopen
  have hcause : ∀ e', (∃ d', .answered (.openForWrite path OpenFlags.durable) (.ok d') ∈ r.history ∧
      .answered (.preallocate d' size) (.error e') ∈ r.history) ↔ e' = e := by
    intro e'
    simp [hopened, hopen, hallocated, hreserved]
  refine ⟨by simp [hvalue, hopened, hopen, hallocated, hreserved], fun e' => ?_, fun e' => ?_,
    fun e' => ?_, fun f hf => ?_, fun d hd => h.requests_of_opened hd, by simp [hopened, hopen]⟩
  · simp [hvalue, hopened, hopen, allocationError_ne_opening]
  · rw [hvalue, hcause, Except.error.injEq, allocationError_eq_durabilityNotSupported_iff]
  · rw [hvalue, hcause, Except.error.injEq, allocationError_eq_allocateSpace_iff]
  · rw [hvalue] at hf
    obtain rfl := Except.error.inj hf
    obtain ⟨hkind, hcode⟩ := allocationError_cases t path e
    exact ⟨e, .inr hkind, hcode⟩

end Follows

/-- A self-test is accounted for on every platform. -/
theorem accounted {W : Type} (t : Features) (handler : Handler Steps W) (w : W) (path : Path) :
    Accounted t path ((run t path).run handler w) := by
  obtain ⟨reply, hreply⟩ := exists_fixed_replies (climbs_run t path) handler w
  obtain ⟨hvalue, hhistory⟩ := run_eq_run_fixed handler reply _ w hreply
  obtain ⟨hrequests, hverdict⟩ := run_fixed t reply path ()
  have hsteps : ((run t path).run handler w).requests = steps reply path := by
    rw [Run.requests, hhistory]
    exact hrequests
  have hfollows : Follows reply t path ((run t path).run handler w) := by
    refine ⟨hvalue.trans hverdict, hsteps, fun q x => ?_⟩
    rw [← hsteps]
    constructor
    · intro h
      exact ⟨mem_requestsOf.mpr ⟨x, h⟩, hreply q x h⟩
    · rintro ⟨hq, rfl⟩
      obtain ⟨x, hx⟩ := mem_requestsOf.mp hq
      exact hreply q x hx ▸ hx
  cases hopen : reply (.openForWrite path OpenFlags.durable) with
  | error e => exact hfollows.accounted_of_refused hopen
  | ok d =>
    cases hreserved : reply (.preallocate d size) with
    | ok u => exact hfollows.accounted_of_reserved hopen hreserved
    | error e => exact hfollows.accounted_of_not_reserved hopen hreserved

end Probe

/-! ## What a self-test leaves of a machine -/

namespace Posix

variable {P : SystemCall → Verdict → Prop} {m m' : Machine}
  {history : List (Happening System Event)} {p : Path} {d : Descriptor} {id : FileId}
  {patience : Nat}

/-- The name was removed by a call that succeeded, or nothing was done, for one of the reasons that
an unlink has. -/
def Removed (P : SystemCall → Verdict → Prop) (p : Path) (m m' : Machine)
    (history : List (Happening System Event)) : Prop :=
  (.answered (.unlink p) (.ok ()) ∈ history ∧
      ∃ t, m.tree.unlink m.workingDirectory p = .ok t ∧ m' = { m with tree := t }) ∨
    m' = m ∧ .answered (.unlink p) (.ok ()) ∉ history ∧
      (p.hasZeroByte = true ∨ (∃ code, m.tree.unlink m.workingDirectory p = .error code) ∨
        CanFail P (.unlink p))

theorem Removed.before {ys : List (Happening System Event)} (h : Removed P p m m' history)
    (hys : .answered (.unlink p) (.ok ()) ∉ ys) : Removed P p m m' (history ++ ys) := by
  rcases h with ⟨hcall, ht⟩ | ⟨hm, hcall, hwhy⟩
  · exact .inl ⟨List.mem_append_left ys hcall, ht⟩
  · exact .inr ⟨hm, by simp [hcall, hys], hwhy⟩

theorem Removed.after {xs : List (Happening System Event)} (h : Removed P p m m' history)
    (hxs : .answered (.unlink p) (.ok ()) ∉ xs) : Removed P p m m' (xs ++ history) := by
  rcases h with ⟨hcall, ht⟩ | ⟨hm, hcall, hwhy⟩
  · exact .inl ⟨List.mem_append_right xs hcall, ht⟩
  · exact .inr ⟨hm, by simp [hcall, hxs], hwhy⟩

/-- A removal makes no call but the unlink. -/
theorem ends_remove {u : Unit} (h : CanEnd P (native patience (Probe.remove p)) m u m' history) :
    (∀ q ∈ requestsOf history, q = .unlink p) ∧ Removed P p m m' history := by
  unfold Probe.remove at h
  rw [native_bind, native_take] at h
  obtain ⟨a, m₁, xs, ys, ha, hr, rfl⟩ := ends_bind.mp h
  -- what is noted after the call adds nothing
  have hrest : m' = m₁ ∧ requestsOf ys = [] := by
    rcases a with e | u
    · simp only at hr
      split at hr
      · obtain ⟨-, rfl, rfl⟩ := hr
        exact ⟨rfl, rfl⟩
      · obtain ⟨_, ⟨-, rfl, rfl⟩, rfl⟩ := hr
        exact ⟨rfl, rfl⟩
    · obtain ⟨-, rfl, rfl⟩ := hr
      exact ⟨rfl, rfl⟩
  obtain ⟨rfl, hys⟩ := hrest
  obtain ⟨hcalls, hunlink⟩ := ends_unlink ha
  refine ⟨by simpa [hys] using hcalls, ?_⟩
  have hremoved : Removed P p m m' xs := by
    rcases hunlink with ⟨hcall, -, ht⟩ | ⟨hm, hcall, -, hwhy⟩
    · exact .inl ⟨hcall, ht⟩
    · exact .inr ⟨hm, hcall, hwhy⟩
  exact hremoved.before fun hmem => absurd (mem_requestsOf.mpr ⟨_, hmem⟩) (by simp [hys])

/-- A removal leaves the machine as it will be, and what is done after it need only be looked at
for its value. -/
theorem ends_remove_bind {α : Type} {f : Unit → StepProgram α} {a : α}
    (h : CanEnd P (native patience (Probe.remove p >>= f)) m a m' history) :
    ∃ m₁, ∃ xs ys : List (Happening System Event), (∀ q ∈ requestsOf xs, q = .unlink p) ∧
      Removed P p m m₁ xs ∧ CanEnd P (native patience (f ())) m₁ a m' ys ∧
      history = xs ++ ys := by
  rw [native_bind] at h
  obtain ⟨u, m₁, xs, ys, hremove, hrest, rfl⟩ := ends_bind.mp h
  obtain ⟨hcalls, hremoved⟩ := ends_remove hremove
  exact ⟨m₁, xs, ys, hcalls, hremoved, hrest, rfl⟩

/-- The test file is at most extended with zeros before its name is removed. -/
theorem ends_useFile (hopen : m.opened d.number = some ⟨true, .file id⟩)
    {r : Except JournalError Unit}
    (h : CanEnd P (native patience (Probe.useFile Features.posix p d)) m r m' history) :
    (∀ e, r ≠ .error (.opening p e)) ∧
      ∃ k m₁, m₁.tree = m.tree.setContent id ((m.tree.content id).extendTo k) ∧
        m₁.workingDirectory = m.workingDirectory ∧ Removed P p m₁ m' history := by
  rw [Probe.useFile_eq, native_bind, native_take] at h
  obtain ⟨allocated, m₁, xs, ys, hallocate, hr, rfl⟩ := ends_bind.mp h
  obtain ⟨reply, hreply, rfl, hxs⟩ := exchanges_once hallocate
  rw [native_bind, native_take] at hr
  obtain ⟨closed, m₂, us, vs, hclose, hr, rfl⟩ := ends_bind.mp hr
  obtain ⟨creply, hcreply, rfl, hus⟩ := exchanges_once hclose
  have hextended : ∃ k, m₁ = m.setContent id ((m.tree.content id).extendTo k) := by
    rcases hreply.allocate hopen with ⟨-, k, -, hm⟩ | ⟨rfl, -⟩
    · exact ⟨k, hm⟩
    · exact ⟨0, by simp [Content.extendTo]⟩
  have hclosed : m₂.tree = m₁.tree ∧ m₂.workingDirectory = m₁.workingDirectory := by
    rcases hcreply.close.1 with rfl | ⟨rfl, -⟩ <;> exact ⟨rfl, rfl⟩
  have hbefore : .answered (.unlink p) (.ok ()) ∉ xs ++ us := fun hmem => by
    have hmade := (hxs.append hus).mem_of_answered (by simp) hmem
    exact absurd hmade (by simp)
  -- whether or not the close failed, the removal is next, and after it the verdict
  rw [native_bind] at hr
  obtain ⟨_, m₃, ws, ys, hnote, hremove, rfl⟩ := ends_bind.mp hr
  obtain ⟨hm₃, hws⟩ : m₃ = m₂ ∧ .answered (.unlink p) (.ok ()) ∉ ws := by
    cases creply with
    | ok u =>
      obtain ⟨-, rfl, rfl⟩ := hnote
      exact ⟨rfl, by simp⟩
    | error code =>
      obtain ⟨rest, ⟨-, rfl, rfl⟩, rfl⟩ := hnote
      exact ⟨rfl, by simp⟩
  subst hm₃
  obtain ⟨m₄, rs, zs, -, hremoved, ⟨rfl, rfl, rfl⟩, rfl⟩ := ends_remove_bind hremove
  have hvalue (e : SystemError) :
      Probe.conclusion Features.posix p (ofSystem reply) ≠ .error (.opening p e) := by
    cases reply with
    | ok u => simp [Probe.conclusion, ofSystem]
    | error code =>
      simpa [Probe.conclusion, ofSystem] using Probe.allocationError_ne_opening
  obtain ⟨k, rfl⟩ := hextended
  refine ⟨hvalue, k, m₃, hclosed.1, hclosed.2, ?_⟩
  have hearlier : .answered (.unlink p) (.ok ()) ∉ xs ++ us ++ ws := by
    simpa [hws] using hbefore
  simpa using hremoved.after hearlier

/-- Looking for an entry changes nothing, and an entry that is reported was seen. -/
theorem ends_entryExists {b : Bool}
    (h : CanEnd P (serve patience (.entryExists p)) m b m' history) :
    m' = m ∧ .answered (.unlink p) (.ok ()) ∉ history ∧
      (b = true ↔ .answered (.inspect p) (.ok ()) ∈ history) := by
  have h' : CanEnd P (entryExists p) m b m' history := h
  unfold entryExists at h'
  split at h'
  · obtain ⟨rfl, rfl, rfl⟩ := h'
    exact ⟨rfl, by simp, by simp⟩
  · obtain ⟨reply, m₁, rest, hreply, hrest, rfl⟩ := h'
    obtain rfl := hreply.of_isQuery rfl
    cases reply with
    | ok u =>
      obtain ⟨rfl, rfl, rfl⟩ := hrest
      exact ⟨rfl, by simp, by simp⟩
    | error code =>
      obtain ⟨rfl, rfl, rfl⟩ := hrest
      exact ⟨rfl, by simp, by simp⟩

/-- What a failed open is followed by: the removal of the name, unless an entry was seen there. -/
theorem ends_attempt_refused {existed : Bool} {e : SystemError} {r : Except JournalError Unit}
    (h : CanEnd P (native patience
      (if !existed then Probe.remove p >>= fun _ => pure (.error (.opening p e))
        else pure (.error (.opening p e)))) m r m' history) :
    r = .error (.opening p e) ∧ (∀ q ∈ requestsOf history, q = .unlink p) ∧
      (existed = true ∧ m' = m ∧ history = [] ∨ existed = false ∧ Removed P p m m' history) := by
  cases existed with
  | true =>
    obtain ⟨rfl, rfl, rfl⟩ := h
    exact ⟨rfl, by simp, .inl ⟨rfl, rfl, rfl⟩⟩
  | false =>
    obtain ⟨m₁, xs, ys, hcalls, hremoved, ⟨rfl, rfl, rfl⟩, rfl⟩ := ends_remove_bind h
    exact ⟨rfl, by simpa using hcalls, .inr ⟨rfl, by simpa using hremoved⟩⟩

/-- What a self-test leaves of a machine.  One that opens its file extends it with zeros at most
and then removes the name; one that does not removes the name unless an entry was seen there. -/
def Probed (P : SystemCall → Verdict → Prop) (p : Path) (m : Machine)
    (r : Except JournalError Unit) (m' : Machine)
    (history : List (Happening System Event)) : Prop :=
  (p.hasZeroByte = false ∧ (∀ e, r ≠ .error (.opening p e)) ∧
    ∃ id t k m₁, m.tree.openOrMake m.workingDirectory p = .ok (id, t) ∧
      m₁.tree = t.setContent id ((t.content id).extendTo k) ∧
      m₁.workingDirectory = m.workingDirectory ∧ Removed P p m₁ m' history) ∨
    (∃ e, r = .error (.opening p e)) ∧
      ((.answered (.inspect p) (.ok ()) ∈ history ∧ m' = m ∧
          .answered (.unlink p) (.ok ()) ∉ history) ∨
        .answered (.inspect p) (.ok ()) ∉ history ∧ Removed P p m m' history)

theorem ends_attempt {r : Except JournalError Unit}
    (h : CanEnd P (native patience (Probe.attempt Features.posix p)) m r m' history) :
    Probed P p m r m' history := by
  unfold Probe.attempt at h
  rw [native_bind, native_take] at h
  obtain ⟨existed, m₁, xs, ys, hexisted, hr, rfl⟩ := ends_bind.mp h
  obtain ⟨rfl, hxs, hseen⟩ := ends_entryExists hexisted
  rw [native_bind, native_take] at hr
  obtain ⟨opened, m₂, us, vs, hopened, hrest, rfl⟩ := ends_bind.mp hr
  -- the open is one call at most, and leaves the machine alone if it fails
  have hcalls : ∀ q ∈ requestsOf us, q = .open_ p (.write true true) := (ends_openPath hopened).1
  have hus : .answered (.unlink p) (.ok ()) ∉ us ∧ .answered (.inspect p) (.ok ()) ∉ us :=
    ⟨fun hmem => absurd (hcalls _ (mem_requestsOf.mpr ⟨_, hmem⟩)) (by simp),
      fun hmem => absurd (hcalls _ (mem_requestsOf.mpr ⟨_, hmem⟩)) (by simp)⟩
  obtain ⟨-, ⟨id, t, hmake, rfl, rfl⟩ | ⟨rfl, ⟨e, rfl⟩, -⟩⟩ := ends_openForWrite hopened
  · have hzero : p.hasZeroByte = false := by
      rcases exchanges_openPath hopened with ⟨-, -, he, -⟩ | ⟨hzero, -⟩
      · exact absurd he (by simp)
      · exact hzero
    have hopen : (openedOn m₁ t p id).opened m₁.nextNumber = some ⟨true, .file id⟩ := by
      simp [openedOn, Machine.openTarget]
    obtain ⟨hvalue, k, m₂, htree, hwd, hremoved⟩ := ends_useFile hopen hrest
    refine .inl ⟨hzero, hvalue, id, t, k, m₂, hmake, htree, hwd, ?_⟩
    exact (hremoved.after hus.1).after hxs
  · obtain ⟨hvalue, hcalls', hend⟩ := ends_attempt_refused hrest
    have hvs : .answered (.inspect p) (.ok ()) ∉ vs :=
      fun hmem => absurd (hcalls' _ (mem_requestsOf.mpr ⟨_, hmem⟩)) (by simp)
    refine .inr ⟨⟨e, hvalue⟩, ?_⟩
    rcases hend with ⟨hb, hm, rfl⟩ | ⟨hb, hremoved⟩
    · exact .inl ⟨by simp [hseen.mp hb], hm, by simp [hxs, hus.1]⟩
    · have hnot : .answered (.inspect p) (.ok ()) ∉ xs := fun hmem =>
        absurd (hseen.mpr hmem) (by simp [hb])
      exact .inr ⟨by simp [hnot, hus.2, hvs], (hremoved.after hus.1).after hxs⟩

/-- What is noted afterwards adds nothing. -/
theorem Probed.before {r : Except JournalError Unit} {ys : List (Happening System Event)}
    (h : Probed P p m r m' history) (hys : requestsOf ys = []) :
    Probed P p m r m' (history ++ ys) := by
  have hnone : ∀ (c : SystemCall) (x : c.Reply), .answered c x ∉ ys := by
    intro c x hmem
    have hc : c ∈ requestsOf ys := mem_requestsOf.mpr ⟨x, hmem⟩
    rw [hys] at hc
    exact absurd hc (by simp)
  rcases h with ⟨hzero, hr, id, t, k, m₁, hmake, htree, hwd, hremoved⟩ |
    ⟨hr, ⟨hseen, hm, hcall⟩ | ⟨hseen, hremoved⟩⟩
  · exact .inl ⟨hzero, hr, id, t, k, m₁, hmake, htree, hwd, hremoved.before (hnone _ _)⟩
  · exact .inr ⟨hr, .inl ⟨by simp [hseen], hm, by simp [hcall, hnone]⟩⟩
  · exact .inr ⟨hr, .inr ⟨by simp [hseen, hnone], hremoved.before (hnone _ _)⟩⟩

theorem ends_probe {r : Except JournalError Unit}
    (h : CanEnd P (native patience (Probe.run Features.posix p)) m r m' history) :
    Probed P p m r m' history := by
  unfold Probe.run at h
  rw [native_bind] at h
  obtain ⟨a, m₁, xs, ys, hattempt, hr, rfl⟩ := ends_bind.mp h
  have hnoted : r = a ∧ m' = m₁ ∧ requestsOf ys = [] := by
    rcases a with e | u
    · obtain ⟨_, ⟨rfl, rfl, rfl⟩, rfl⟩ := hr
      exact ⟨rfl, rfl, rfl⟩
    · obtain ⟨_, ⟨rfl, rfl, rfl⟩, rfl⟩ := hr
      exact ⟨rfl, rfl, rfl⟩
  obtain ⟨rfl, rfl, hys⟩ := hnoted
  exact (ends_attempt hattempt).before hys

/-- Where the name was removed by a call that succeeded, it names nothing. -/
theorem Removed.inspectEntry (h : Removed P p m m' history)
    (hcall : .answered (.unlink p) (.ok ()) ∈ history) :
    m'.tree.inspectEntry m'.workingDirectory p = .error Errno.noEntry := by
  rcases h with ⟨-, t, ht, rfl⟩ | ⟨-, hnot, -⟩
  · exact (FileTree.inspectEntry_of_unlink ht).2
  · exact absurd hcall hnot

end Posix

namespace Probe

/-- **The verdict and the cleanup of a self-test.**  On every platform, whatever fails, the verdict
is that of the open and of the reservation, and what was opened is closed and removed.  On the
native platform the path names nothing afterwards, if the removal succeeded. -/
theorem run_verdict_and_cleanup (path : Path) :
    (∀ {W : Type} (t : Features) (handler : Handler Steps W) (w : W),
      Accounted t path ((run t path).run handler w)) ∧
    ∀ {φ : Type} (patience : Nat) (decide : Policy φ) (m : Machine) (s : φ),
      let r := (Posix.native patience (run Features.posix path)).run decide.handler (m, s)
      .answered (.unlink path) (.ok ()) ∈ r.history →
        r.world.1.tree.inspectEntry r.world.1.workingDirectory path = .error Errno.noEntry := by
  refine ⟨fun t handler w => accounted t handler w path, ?_⟩
  intro φ patience decide m s r hcall
  have hends : CanEnd (fun _ _ => True) _ m r.value r.world.1 r.history :=
    Posix.canEnd_run (fun _ _ => trivial) _ (m, s)
  rcases Posix.ends_probe hends with ⟨-, -, id, t, k, m₁, -, -, -, hremoved⟩ |
    ⟨-, ⟨-, -, hnot⟩ | ⟨-, hremoved⟩⟩
  · exact hremoved.inspectEntry hcall
  · exact absurd hcall hnot
  · exact hremoved.inspectEntry hcall

end Probe

end WriteAhead
