/-
# The life of a journal

From its opening to its release a journal goes through a `Life`: it is refused, or the platform
cannot open its file, or the file is used through one descriptor until it is released.  Every
opening begins a life, whatever the platform answers; using the journal continues it, and
releasing the journal ends it.

* `Opening.life_openForWrite`, `Opening.life_openReader` : how a life begins;
* `Life.use`, `Life.release` : how it goes on.
-/
import WriteAhead.Proofs.Session
import WriteAhead.Proofs.Uses

namespace WriteAhead

open Program

/-! ## What a history hands out -/

/-- The descriptor that a happening hands out, if it does. -/
def handedOut? : Happening Steps Event → Option Descriptor
  | .answered (.openForWrite _ _) (.ok d) => some d
  | .answered (.openForRead _) (.ok d) => some d
  | _ => none

/-- The descriptors handed out in a history, in order. -/
def handedOut (history : List (Happening Steps Event)) : List Descriptor :=
  history.filterMap handedOut?

/-- The descriptors closed in a history, in order. -/
def closes (history : List (Happening Steps Event)) : List Descriptor :=
  (requestsOf history).filterMap Step.closed?

/-- The paths unlinked in a history, in order. -/
def unlinks (history : List (Happening Steps Event)) : List Path :=
  (requestsOf history).filterMap Step.unlinked?

theorem handedOut_append (xs ys : List (Happening Steps Event)) :
    handedOut (xs ++ ys) = handedOut xs ++ handedOut ys := by
  unfold handedOut
  rw [List.filterMap_append]

/-- A history without openings hands out nothing. -/
theorem handedOut_eq_nil {history : List (Happening Steps Event)}
    (h : ∀ s ∈ requestsOf history, s.opens = false) : handedOut history = [] := by
  unfold handedOut
  rw [List.filterMap_eq_nil_iff]
  intro x hx
  cases x with
  | noted e => rfl
  | answered s r =>
    have hs := h s (mem_requestsOf.mpr ⟨r, hx⟩)
    cases s with
    | openForWrite p flags => exact absurd hs (by simp [Step.opens])
    | openForRead p => exact absurd hs (by simp [Step.opens])
    | _ => rfl

/-! ## Openings -/

/-- What an operation that opens a journal sets out to do. -/
structure Opening (features : Nat → Features) where
  /-- The number of the platform. -/
  on : Nat
  /-- The step that opens the file. -/
  step : Step
  /-- The handle on the open file. -/
  handle : Descriptor → Handle
  /-- The path that is to be unlinked in the end, if any. -/
  removal : Option Path
  opens : step.opens = true
  descriptor_handle : ∀ d, (handle d).descriptor = some d
  unlinkPath?_handle : ∀ d, (handle d).unlinkPath? (features on) = removal

namespace Opening

variable {features : Nat → Features}

/-- Opening for writing.  The path is to be unlinked only in ephemeral mode, on a platform that
leaves this to the journal. -/
def forWrite (features : Nat → Features) (on : Nat) (path : Path) (mode : JournalMode)
    (support : DurabilitySupport) : Opening features where
  on := on
  step := .openForWrite path (OpenFlags.forJournal mode support)
  handle := Journal.writer path mode support
  removal := if mustUnlink (features on) mode then some path else none
  opens := rfl
  descriptor_handle := fun _ => rfl
  unlinkPath?_handle := Journal.unlinkPath?_writer (features on) path mode support

/-- Opening for reading. -/
def forRead (features : Nat → Features) (on : Nat) (path : Path) : Opening features where
  on := on
  step := .openForRead path
  handle := fun d => ⟨some d, none, false⟩
  removal := none
  opens := rfl
  descriptor_handle := fun _ => rfl
  unlinkPath?_handle := fun _ => rfl

/-- The steps that release the journal that is open as `d`. -/
def releaseSteps (o : Opening features) (d : Descriptor) : List Step :=
  o.removal.toList.map Step.unlink ++ [.close d]

theorem releaseSteps_handle (o : Opening features) (d : Descriptor) :
    (o.handle d).releaseSteps (features o.on) d = o.releaseSteps d := by
  unfold Handle.releaseSteps releaseSteps
  rw [o.unlinkPath?_handle d]

/-- Nothing is opened by a release. -/
theorem opens_of_mem_releaseSteps (o : Opening features) {d : Descriptor} {s : Step}
    (hs : s ∈ o.releaseSteps d) : s.opens = false := by
  unfold releaseSteps at hs
  rcases List.mem_append.mp hs with hs | hs
  · obtain ⟨p, -, rfl⟩ := List.mem_map.mp hs
    rfl
  · obtain rfl := List.mem_singleton.mp hs
    rfl

end Opening

/-- What an operation sets out to do, if it opens a journal. -/
def Operation.opening? (features : Nat → Features) : Operation → Option (Opening features)
  | .openForWrite on path mode _ support => some (Opening.forWrite features on path mode support)
  | .openForRead on path => some (Opening.forRead features on path)
  | _ => none

/-! ## Lives -/

/-- How far a journal can have come: the descriptors handed out to it, the steps taken for it, and
its place among the journals. -/
inductive Life {features : Nat → Features} (o : Opening features) :
    List Descriptor → List Step → Option LiveJournal → Prop where
  /-- The contract of opening was broken. -/
  | refused : Life o [] [] none
  /-- The platform could not open the file. -/
  | failed : Life o [] [o.step] none
  /-- The file is open. -/
  | running (d : Descriptor) (uses : List Step) (huses : ∀ s ∈ uses, s.Uses d) :
      Life o [d] (o.step :: uses) (some ⟨o.on, o.handle d⟩)
  /-- The file was released. -/
  | released (d : Descriptor) (uses : List Step) (huses : ∀ s ∈ uses, s.Uses d) :
      Life o [d] (o.step :: (uses ++ o.releaseSteps d)) none

namespace Life

variable {features : Nat → Features} {o : Opening features}

/-- Using a live journal continues its life. -/
theorem use {ds : List Descriptor} {steps : List Step} {l : LiveJournal}
    (h : Life o ds steps (some l)) {more : List Step}
    (hmore : ∀ d, l.handle.descriptor = some d → ∀ s ∈ more, s.Uses d) :
    Life o ds (steps ++ more) (some l) := by
  cases h with
  | running d uses huses =>
    have hall : ∀ s ∈ uses ++ more, s.Uses d := by
      intro s hs
      rcases List.mem_append.mp hs with hs | hs
      · exact huses s hs
      · exact hmore d (o.descriptor_handle d) s hs
    exact .running d (uses ++ more) hall

/-- Releasing a live journal ends its life. -/
theorem release {ds : List Descriptor} {steps : List Step} {l : LiveJournal}
    (h : Life o ds steps (some l)) {more : List Step}
    (hmore : ∀ d, l.handle.descriptor = some d →
      more = l.handle.releaseSteps (features l.on) d) :
    Life o ds (steps ++ more) none := by
  cases h with
  | running d uses huses =>
    rw [hmore d (o.descriptor_handle d), o.releaseSteps_handle d, List.cons_append]
    exact .released d uses huses

/-- A live journal has a descriptor, which its release closes without opening anything. -/
theorem descriptor_live {ds : List Descriptor} {steps : List Step} {l : LiveJournal}
    (h : Life o ds steps (some l)) :
    ∃ d, l.handle.descriptor = some d ∧
      ∀ s ∈ l.handle.releaseSteps (features l.on) d, s.opens = false := by
  cases h with
  | running d uses huses =>
    refine ⟨d, o.descriptor_handle d, fun s hs => ?_⟩
    rw [o.releaseSteps_handle d] at hs
    exact o.opens_of_mem_releaseSteps hs

end Life

/-! ## How a life begins -/

namespace Opening

variable {W : Type}

/-- The place of a journal whose opening ended in `outcome`. -/
def slot (on : Nat) (outcome : Outcome (Handle × Nat)) : Option LiveJournal :=
  outcome.toOption.map fun x => ⟨on, x.1⟩

/-- An opening for writing begins a life, whatever the platform answers. -/
theorem life_openForWrite (features : Nat → Features) (on : Nat) (path : Path)
    (mode : JournalMode) (size : UInt64) (support : DurabilitySupport)
    (handler : Handler Steps W) (w : W) :
    let r := (Journal.openForWrite (features on) path mode size support).run handler w
    Life (forWrite features on path mode support) (handedOut r.history) (requestsOf r.history)
      (slot on r.value) := by
  intro r
  unfold r Journal.openForWrite Step.take
  by_cases hsize : size = 0
  · rw [if_pos hsize]
    exact .refused
  rw [if_neg hsize]
  obtain ⟨reply, w', hreply⟩ : ∃ reply w',
      handler (.openForWrite path (OpenFlags.forJournal mode support)) w = (reply, w') :=
    ⟨_, _, rfl⟩
  cases reply with
  | error e =>
    simp only [ask_bind, done_bind, run_ask, hreply]
    exact .failed
  | ok d =>
    have huses := (Journal.asks_prepare (OpenFlags.forJournal mode support) d size
      (Q := Step.Uses d) rfl rfl rfl).requests handler w'
    have hquiet := handedOut_eq_nil fun s hs => (huses s hs).opens
    have hhandle : (⟨some d, some path, (OpenFlags.forJournal mode support).deleteOnClose⟩ :
        Handle) = Journal.writer path mode support d := rfl
    simp only [ask_bind, done_bind, run_ask, hreply, run_bind, Run.history_after,
      Run.value_after, handedOut_append, requestsOf_append, hhandle]
    rw [hquiet]
    cases ((Journal.prepare (OpenFlags.forJournal mode support) d size).run handler w').value with
    | ok n =>
      simp only [emit, note_bind, done_bind, pure_eq_done, run_note, run_done,
        Run.history_after, Run.value_after, requestsOf_answered, requestsOf_noted,
        requestsOf_nil, List.append_nil]
      exact Life.running d _ huses
    | error cause =>
      -- the handle was never given out, but its life ends by the same release
      have hrelease := (Handle.requests_abort (features on) (Journal.writer path mode support d) rfl
        cause handler
        ((Journal.prepare (OpenFlags.forJournal mode support) d size).run handler w').world).trans
          ((forWrite features on path mode support).releaseSteps_handle d)
      have hclosed := handedOut_eq_nil fun s hs =>
        (forWrite features on path mode support).opens_of_mem_releaseSteps
          (Eq.subst hrelease (motive := fun steps => s ∈ steps) hs)
      simp only [run_bind, pure_eq_done, run_done, Run.history_after,
        Run.value_after, hclosed, requestsOf_answered, requestsOf_nil, List.append_nil]
      unfold Run.requests at hrelease
      rw [hrelease]
      exact Life.released d _ huses

/-- An opening for reading begins a life, whatever the platform answers. -/
theorem life_openReader (features : Nat → Features) (on : Nat) (path : Path)
    (handler : Handler Steps W) (w : W) :
    let r := (Session.openReader path).run handler w
    Life (forRead features on path) (handedOut r.history) (requestsOf r.history)
      (slot on r.value) := by
  intro r
  unfold r Session.openReader Journal.openForRead Step.take
  obtain ⟨reply, w', hreply⟩ : ∃ reply w', handler (.openForRead path) w = (reply, w') :=
    ⟨_, _, rfl⟩
  cases reply with
  | error e =>
    simp only [ask_bind, done_bind, run_ask, hreply]
    exact .failed
  | ok d =>
    simp only [ask_bind, done_bind, run_ask, hreply]
    exact .running d [] (by simp)

end Opening

end WriteAhead
