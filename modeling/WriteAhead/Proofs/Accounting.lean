/-
# Descriptors and names are accounted for

Over any session, on any platforms, the file of each journal is closed once and only by what ends
the journal, and a name is unlinked only for an ephemeral journal, once and right before its close.

The books of a session hold one account for each journal number.  One operation changes one
account, by one stage of a `Life`, so that the books are kept by induction on the operations.
-/
import WriteAhead.Proofs.Life

namespace WriteAhead

open Program

/-! ## Settled accounts -/

/-- The history of a journal, which is over or not, accounts for what was handed out to it. -/
structure Settled {features : Nat → Features} (o : Opening features) (isOver : Bool)
    (history : List (Happening Steps Event)) : Prop where
  /-- At most one descriptor is handed out. -/
  handedOut_le : (handedOut history).length ≤ 1
  /-- What was handed out is closed once, when the journal is over. -/
  closes_eq : closes history = if isOver then handedOut history else []
  /-- The path to be unlinked is unlinked once, when the journal is over. -/
  unlinks_eq : unlinks history =
    if isOver then (handedOut history).flatMap fun _ => o.removal.toList else []
  /-- Every step on a descriptor is on the one that was handed out. -/
  own : ∀ s ∈ requestsOf history, ∀ d, s.descriptor? = some d → d ∈ handedOut history
  /-- Nothing is done after a close. -/
  close_last : ∀ front d rest, requestsOf history = front ++ .close d :: rest → rest = []
  /-- An unlink comes right before a close. -/
  unlink_close : ∀ front p rest, requestsOf history = front ++ .unlink p :: rest →
    ∃ d, rest = [.close d]

/-- What follows an element in a list that ends with its only such element. -/
theorem eq_nil_of_append_last {α : Type} {front before after : List α} {a b : α}
    (hb : b ∉ front) (h : front ++ [a] = before ++ b :: after) : after = [] := by
  rcases List.eq_nil_or_concat after with rfl | ⟨init, last, rfl⟩
  · rfl
  · rw [List.concat_eq_append] at h
    have hfront : front = before ++ b :: init := by
      have hcons : front ++ [a] = (before ++ b :: init) ++ [last] := by
        rw [h, List.append_assoc, List.cons_append]
      exact (List.append_inj' hcons rfl).1
    exact absurd (hfront ▸ by simp) hb

namespace Life

variable {features : Nat → Features} {o : Opening features} {ds : List Descriptor}
  {steps : List Step} {slot : Option LiveJournal}

theorem length_le (h : Life o ds steps slot) : ds.length ≤ 1 := by
  cases h <;> simp

/-- A life that is not over, or got no descriptor, has no step that closes or unlinks anything; in
one that is over they come last. -/
theorem shape (h : Life o ds steps slot) :
    ((slot.isNone → ds = []) ∧ ∀ s ∈ steps, s.closed? = none ∧ s.unlinked? = none) ∨
      ∃ front d, slot.isNone ∧ ds = [d] ∧
        steps = front ++ o.removal.toList.map Step.unlink ++ [.close d] ∧
        ∀ s ∈ front, s.closed? = none ∧ s.unlinked? = none := by
  have hstep : o.step.closed? = none ∧ o.step.unlinked? = none :=
    ⟨Step.closed?_of_opens o.opens, Step.unlinked?_of_opens o.opens⟩
  cases h with
  | refused => exact .inl (by simp)
  | failed => exact .inl (by simpa using hstep)
  | running d uses huses =>
    refine .inl ⟨by simp, fun s hs => ?_⟩
    rcases List.mem_cons.mp hs with rfl | hs
    · exact hstep
    · exact ⟨(huses s hs).closed?, (huses s hs).unlinked?⟩
  | released d uses huses =>
    refine .inr ⟨o.step :: uses, d, rfl, rfl, by simp [Opening.releaseSteps], fun s hs => ?_⟩
    rcases List.mem_cons.mp hs with rfl | hs
    · exact hstep
    · exact ⟨(huses s hs).closed?, (huses s hs).unlinked?⟩

theorem closed (h : Life o ds steps slot) :
    steps.filterMap Step.closed? = if slot.isNone then ds else [] := by
  rcases h.shape with ⟨hds, hnone⟩ | ⟨front, d, hslot, rfl, rfl, hfront⟩
  · rw [List.filterMap_eq_nil_iff.mpr fun s hs => (hnone s hs).1]
    split
    · next hslot => exact (hds hslot).symm
    · rfl
  · rw [if_pos hslot, List.filterMap_append, List.filterMap_append,
      List.filterMap_eq_nil_iff.mpr fun s hs => (hfront s hs).1]
    cases o.removal <;> rfl

theorem unlinked (h : Life o ds steps slot) :
    steps.filterMap Step.unlinked? =
      if slot.isNone then ds.flatMap fun _ => o.removal.toList else [] := by
  rcases h.shape with ⟨hds, hnone⟩ | ⟨front, d, hslot, rfl, rfl, hfront⟩
  · rw [List.filterMap_eq_nil_iff.mpr fun s hs => (hnone s hs).2]
    split
    · next hslot => rw [hds hslot]; rfl
    · rfl
  · rw [if_pos hslot, List.filterMap_append, List.filterMap_append,
      List.filterMap_eq_nil_iff.mpr fun s hs => (hfront s hs).2]
    cases o.removal <;> rfl

theorem own (h : Life o ds steps slot) :
    ∀ s ∈ steps, ∀ d, s.descriptor? = some d → d ∈ ds := by
  have hstep := Step.descriptor?_of_opens o.opens
  intro s hs d hd
  cases h with
  | refused => exact absurd hs (by simp)
  | failed =>
    obtain rfl := List.mem_singleton.mp hs
    exact absurd hd (by simp [hstep])
  | running d' uses huses =>
    rcases List.mem_cons.mp hs with rfl | hs
    · exact absurd hd (by simp [hstep])
    · exact List.mem_singleton.mpr ((huses s hs).descriptor? hd)
  | released d' uses huses =>
    rcases List.mem_cons.mp hs with rfl | hs
    · exact absurd hd (by simp [hstep])
    · rcases List.mem_append.mp hs with hs | hs
      · exact List.mem_singleton.mpr ((huses s hs).descriptor? hd)
      · rcases List.mem_append.mp hs with hs | hs
        · obtain ⟨p, -, rfl⟩ := List.mem_map.mp hs
          exact absurd hd (by simp [Step.descriptor?])
        · obtain rfl := List.mem_singleton.mp hs
          exact List.mem_singleton.mpr (Option.some.inj hd).symm

theorem close_last (h : Life o ds steps slot) {front : List Step} {d : Descriptor}
    {rest : List Step} (hsplit : steps = front ++ .close d :: rest) : rest = [] := by
  rcases h.shape with ⟨-, hnone⟩ | ⟨before, d', -, -, hsteps, hbefore⟩
  · have hclose := (hnone (.close d) (by simp [hsplit])).1
    exact absurd hclose (by simp [Step.closed?])
  · refine eq_nil_of_append_last ?_ (hsteps.symm.trans hsplit)
    intro hmem
    rcases List.mem_append.mp hmem with hmem | hmem
    · exact absurd (hbefore _ hmem).1 (by simp [Step.closed?])
    · obtain ⟨p, -, hp⟩ := List.mem_map.mp hmem
      exact absurd hp (by simp)

theorem unlink_close (h : Life o ds steps slot) {front : List Step} {p : Path}
    {rest : List Step} (hsplit : steps = front ++ .unlink p :: rest) :
    ∃ d, rest = [.close d] := by
  rcases h.shape with ⟨-, hnone⟩ | ⟨before, d, -, -, hsteps, hbefore⟩
  · have hunlink := (hnone (.unlink p) (by simp [hsplit])).2
    exact absurd hunlink (by simp [Step.unlinked?])
  · refine ⟨d, ?_⟩
    -- the close is the last of the rest, and nothing is left before it
    rcases List.eq_nil_or_concat rest with rfl | ⟨init, last, rfl⟩
    · have hlast := (List.append_inj' (hsteps.symm.trans hsplit) rfl).2
      exact absurd hlast (by simp)
    · rw [List.concat_eq_append] at hsplit ⊢
      have hcons : before ++ o.removal.toList.map Step.unlink ++ [.close d] =
          (front ++ .unlink p :: init) ++ [last] := by
        rw [← hsteps, hsplit, List.append_assoc, List.cons_append]
      obtain ⟨hinit, hlast⟩ := List.append_inj' hcons rfl
      have hnot : Step.unlink p ∉ before := fun hmem =>
        absurd (hbefore _ hmem).2 (by simp [Step.unlinked?])
      cases hr : o.removal with
      | none =>
        rw [hr] at hinit
        exact absurd (show Step.unlink p ∈ before by simp_all) hnot
      | some q =>
        rw [hr] at hinit
        obtain rfl := eq_nil_of_append_last hnot hinit
        obtain rfl : Step.close d = last := List.singleton_inj.mp hlast
        rfl

/-- The account of a journal is settled at any stage of its life. -/
theorem settled {history : List (Happening Steps Event)}
    (h : Life o (handedOut history) (requestsOf history) slot) :
    Settled o slot.isNone history where
  handedOut_le := h.length_le
  closes_eq := h.closed
  unlinks_eq := h.unlinked
  own := h.own
  close_last := fun _ _ _ hsplit => h.close_last hsplit
  unlink_close := fun _ _ _ hsplit => h.unlink_close hsplit

end Life

/-! ## One operation changes one account -/

/-- What one operation does to the account of its journal: what it sets out to open, what happens,
whether it ends the journal, and the place of the journal before and after. -/
inductive Turn (features : Nat → Features) :
    Option (Opening features) → List (Happening Steps Event) → Bool →
      Option (Option LiveJournal) → Option (Option LiveJournal) → Prop where
  /-- The journal is opened, or fails to be. -/
  | begun (o : Opening features) (history : List (Happening Steps Event))
      (slot : Option LiveJournal) (life : Life o (handedOut history) (requestsOf history) slot) :
      Turn features (some o) history slot.isNone none (some slot)
  /-- There is no such journal, or not any more. -/
  | idle (place : Option (Option LiveJournal)) : Turn features none [] false place place
  /-- The journal is used. -/
  | used (l : LiveJournal) (history : List (Happening Steps Event))
      (uses : ∀ d, l.handle.descriptor = some d → ∀ s ∈ requestsOf history, s.Uses d) :
      Turn features none history false (some (some l)) (some (some l))
  /-- The journal is released. -/
  | ended (l : LiveJournal) (history : List (Happening Steps Event))
      (releases : ∀ d, l.handle.descriptor = some d →
        requestsOf history = l.handle.releaseSteps (features l.on) d) :
      Turn features none history true (some (some l)) (some none)

namespace Session

variable {W : Type} (features : Nat → Features) (handlers : Nat → Handler Steps W)

/-- The platforms that answer as `handlers` say. -/
def answering (i : Nat) : Platform Steps W := Platform.ofHandler (features i) (handlers i)

@[simp] theorem run_answering {α : Type} (i : Nat) (p : StepProgram α) (w : W) :
    (answering features handlers i).run p w = p.run (handlers i) w :=
  Platform.run_ofHandler _ _ p w

theorem turn_opened (s : Session W) {op : Operation} {o : Opening features}
    (hop : op.opening? features = some o) (r : Run Steps Event W (Outcome (Handle × Nat)))
    (answer : Nat → Answer)
    (life : Life o (handedOut r.history) (requestsOf r.history) (Opening.slot o.on r.value)) :
    let x := s.opened op o.on r answer
    Turn features (x.operation.opening? features) x.history x.ends
        s.journals[x.journal]? x.after.journals[x.journal]? ∧
      ∀ j, j ≠ x.journal → x.after.journals[j]? = s.journals[j]? := by
  have hends : ∀ (f : Bool) (a : Outcome Answer) (after : Session W), a.isOk = !f →
      Record.ends ⟨op, s.journals.length, some a, r.history, after⟩ = f := by
    intro f a after ha
    -- an opening that answers with an error ends the journal it was to open
    cases op with
    | openForWrite | openForRead => simp [Record.ends, ha]
    | _ => exact absurd hop (by simp [Operation.opening?])
  have hturn := Turn.begun o r.history _ life
  have hplace : ∀ slot, (s.journals ++ [slot])[s.journals.length]? = some slot := by simp
  have hother : ∀ slot j, j ≠ s.journals.length → (s.journals ++ [slot])[j]? = s.journals[j]? := by
    intro slot j hj
    rcases Nat.lt_or_ge j s.journals.length with hlt | hge
    · exact List.getElem?_append_left hlt
    · rw [List.getElem?_eq_none hge, List.getElem?_eq_none (by simp; omega)]
  have hbefore : s.journals[s.journals.length]? = none := by simp
  unfold opened
  cases hr : r.value with
  | ok x =>
    rw [hr] at hturn
    refine ⟨?_, hother _⟩
    rw [hop, hends false _ _ rfl, hplace, hbefore]
    exact hturn
  | error f =>
    rw [hr] at hturn
    refine ⟨?_, hother _⟩
    rw [hop, hends true _ _ rfl, hplace, hbefore]
    exact hturn

theorem turn_used (s : Session W) {α : Type} {op : Operation} (j : Nat)
    (hop : op.opening? features = none)
    (hends : ∀ a history after, Record.ends (⟨op, j, a, history, after⟩ : Record Steps W) = false)
    {p : Handle → StepProgram α} (answer : α → Outcome Answer)
    (hp : ∀ h d, h.descriptor = some d → (p h).Asks (Step.Uses d)) :
    let x := s.used (answering features handlers) op j p answer
    Turn features (x.operation.opening? features) x.history x.ends
        s.journals[x.journal]? x.after.journals[x.journal]? ∧
      ∀ j, j ≠ x.journal → x.after.journals[j]? = s.journals[j]? := by
  unfold used
  cases hl : s.live? j with
  | none =>
    refine ⟨?_, fun _ _ => rfl⟩
    rw [hop, hends]
    exact .idle _
  | some l =>
    refine ⟨?_, fun _ _ => rfl⟩
    rw [hop, hends, live?_eq_some hl]
    refine .used l _ fun d hd => ?_
    simp only [run_answering]
    exact (hp l.handle d hd).requests _ _

theorem turn_ended (s : Session W) {α : Type} {op : Operation} (j : Nat)
    (hop : op.opening? features = none)
    (hends : ∀ a history after,
      Record.ends (⟨op, j, a, history, after⟩ : Record Steps W) = a.isSome)
    {p : Features → Handle → StepProgram α} (answer : α → Outcome Answer)
    (hp : ∀ t h d handler (w : W), h.descriptor = some d →
      ((p t h).run handler w).requests = h.releaseSteps t d) :
    let x := s.ended (answering features handlers) op j p answer
    Turn features (x.operation.opening? features) x.history x.ends
        s.journals[x.journal]? x.after.journals[x.journal]? ∧
      ∀ j, j ≠ x.journal → x.after.journals[j]? = s.journals[j]? := by
  unfold ended
  cases hl : s.live? j with
  | none =>
    refine ⟨?_, fun _ _ => rfl⟩
    rw [hop, hends]
    exact .idle _
  | some l =>
    have hj := live?_eq_some hl
    have hlt : j < s.journals.length := (List.getElem?_eq_some_iff.mp hj).1
    refine ⟨?_, fun k hk => List.getElem?_set_ne (Ne.symm hk)⟩
    rw [hop, hends, hj, List.getElem?_set_self hlt]
    refine .ended l _ fun d hd => ?_
    simp only [run_answering]
    exact hp _ l.handle d _ _ hd

/-- An operation turns the account of its own journal and leaves all others alone. -/
theorem turn_step (s : Session W) (op : Operation) :
    let r := s.step (answering features handlers) op
    Turn features (r.operation.opening? features) r.history r.ends
        s.journals[r.journal]? r.after.journals[r.journal]? ∧
      ∀ j, j ≠ r.journal → r.after.journals[j]? = s.journals[j]? := by
  cases op with
  | openForWrite on path mode size support =>
    refine turn_opened features s (o := Opening.forWrite features on path mode support) rfl _ _ ?_
    rw [run_answering]
    exact Opening.life_openForWrite features on path mode size support _ _
  | openForRead on path =>
    refine turn_opened features s (o := Opening.forRead features on path) rfl _ _ ?_
    rw [run_answering]
    exact Opening.life_openReader features on path _ _
  | write j bytes offset =>
    exact turn_used features handlers s j rfl (fun _ _ _ => rfl) _ fun h d hd =>
      h.asks_write hd bytes offset
  | read j buffer offset =>
    exact turn_used features handlers s j rfl (fun _ _ _ => rfl) _ fun h d hd =>
      h.asks_read hd buffer offset
  | truncate j size =>
    exact turn_used features handlers s j rfl (fun _ _ _ => rfl) _ fun h d hd =>
      h.asks_truncate hd size
  | size j =>
    exact turn_used features handlers s j rfl (fun _ _ _ => rfl) _ fun h d hd => h.asks_size hd
  | close j =>
    exact turn_ended features handlers s j rfl (fun _ _ _ => rfl) _ fun t h d handler w hd =>
      Handle.requests_close t h hd handler w
  | drop j =>
    exact turn_ended features handlers s j rfl (fun _ _ _ => rfl) _ fun t h d handler w hd =>
      Handle.requests_drop t h hd handler w

end Session

/-! ## The books of a session -/

/-- The account of one journal number: what was opened under it, what happened, whether it is over,
and its place among the journals. -/
inductive Account {features : Nat → Features} :
    List (Opening features) → List (Happening Steps Event) → Bool →
      Option (Option LiveJournal) → Prop where
  /-- The number was not given out yet. -/
  | unused : Account [] [] false none
  /-- The number belongs to the journal of one opening. -/
  | kept (o : Opening features) (history : List (Happening Steps Event))
      (slot : Option LiveJournal) (life : Life o (handedOut history) (requestsOf history) slot) :
      Account [o] history slot.isNone (some slot)

namespace Account

variable {features : Nat → Features} {os : List (Opening features)}
  {history more : List (Happening Steps Event)} {isOver ends : Bool}
  {place place' : Option (Option LiveJournal)} {opening : Option (Opening features)}

/-- The steps of a turn that ends nothing neither close nor unlink, and those of a turn that opens
nothing hand out nothing. -/
theorem turn_quiet (h : Account os history isOver place)
    (t : Turn features opening more ends place place') :
    (opening = none → handedOut more = []) ∧
      (ends = false → ∀ s ∈ requestsOf more, s.closed? = none ∧ s.unlinked? = none) := by
  cases t with
  | begun o _ slot life =>
    refine ⟨fun hnone => absurd hnone (by simp), fun hends => ?_⟩
    rcases life.shape with ⟨-, hquiet⟩ | ⟨_, _, hslot, -⟩
    · exact hquiet
    · exact absurd hslot (by simp [hends])
  | idle => exact ⟨fun _ => rfl, fun _ s hs => absurd hs (by simp)⟩
  | used l _ uses =>
    cases h with
    | kept o _ _ life =>
      obtain ⟨d, hd, -⟩ := life.descriptor_live
      refine ⟨fun _ => handedOut_eq_nil fun s hs => (uses d hd s hs).opens, fun _ s hs => ?_⟩
      exact ⟨(uses d hd s hs).closed?, (uses d hd s hs).unlinked?⟩
  | ended l _ releases =>
    cases h with
    | kept o _ _ life =>
      obtain ⟨d, hd, hopens⟩ := life.descriptor_live
      refine ⟨fun _ => handedOut_eq_nil fun s hs => hopens s ?_, fun hends => ?_⟩
      · exact releases d hd ▸ hs
      · exact absurd hends (by simp)

/-- A turn takes an account one stage further. -/
theorem turn (h : Account os history isOver place)
    (t : Turn features opening more ends place place') :
    Account (os ++ opening.toList) (history ++ more) (isOver || ends) place' := by
  have hquiet := (h.turn_quiet t).1
  cases t with
  | begun o _ slot life =>
    cases h with
    | unused => exact .kept o more slot life
  | idle =>
    simpa using h
  | used l _ uses =>
    cases h with
    | kept o _ _ life =>
      rw [Option.toList_none, List.append_nil, Bool.or_false]
      refine .kept o _ _ ?_
      rw [handedOut_append, requestsOf_append, hquiet rfl, List.append_nil]
      exact life.use uses
  | ended l _ releases =>
    cases h with
    | kept o _ _ life =>
      rw [Option.toList_none, List.append_nil, Bool.or_true]
      refine .kept o _ none ?_
      rw [handedOut_append, requestsOf_append, hquiet rfl, List.append_nil]
      exact life.release releases

/-- Every account is settled. -/
theorem settled (h : Account os history isOver place) :
    (os = [] ∧ history = []) ∨ ∃ o, os = [o] ∧ Settled o isOver history := by
  cases h with
  | unused => exact .inl ⟨rfl, rfl⟩
  | kept o _ slot life => exact .inr ⟨o, rfl, life.settled⟩

end Account

namespace Session

variable {W : Type}

/-- What was opened under a number, over some records. -/
def openings (features : Nat → Features) (j : Nat) (records : List (Record Steps W)) :
    List (Opening features) :=
  (recordsOf j records).filterMap (·.operation.opening? features)

/-- The accounts of all journals, in a session with some past. -/
def Books (features : Nat → Features) (past : List (Record Steps W)) (s : Session W) : Prop :=
  ∀ j, Account (openings features j past) (story j past) (isOver j past) s.journals[j]?

theorem books_start (features : Nat → Features) (w : W) : Books features [] (start w) :=
  fun _ => .unused

variable {features : Nat → Features} {past : List (Record Steps W)} {s : Session W}
  (handlers : Nat → Handler Steps W)

theorem filterMap_singleton {α β : Type} (f : α → Option β) (a : α) :
    [a].filterMap f = (f a).toList := by
  cases h : f a <;> simp [h]

/-- One operation keeps the books. -/
theorem Books.step (h : Books features past s) (op : Operation) :
    Books features (past ++ [s.step (answering features handlers) op])
      (s.step (answering features handlers) op).after := by
  obtain ⟨hturn, hother⟩ := turn_step features handlers s op
  intro j
  by_cases hown : (s.step (answering features handlers) op).journal = j
  · subst hown
    -- the account of the operation's own journal
    have hnext := (h _).turn hturn
    unfold openings story isOver at hnext ⊢
    rw [recordsOf_append_self, List.filterMap_append, List.flatMap_append, List.any_append,
      filterMap_singleton, List.flatMap_singleton]
    simpa using hnext
  · unfold openings story isOver
    rw [recordsOf_append_of_ne past hown, hother j (Ne.symm hown)]
    exact h j

/-- An operation that ends nothing neither closes nor unlinks. -/
theorem Books.quiet (h : Books features past s) (op : Operation)
    (hends : (s.step (answering features handlers) op).ends = false) :
    ∀ q ∈ requestsOf (s.step (answering features handlers) op).history,
      q.closed? = none ∧ q.unlinked? = none :=
  ((h _).turn_quiet (turn_step features handlers s op).1).2 hends

/-- A run of operations keeps the books. -/
theorem Books.run (h : Books features past s) (ops : List Operation) :
    Books features (past ++ run (answering features handlers) s ops)
        (final (answering features handlers) s ops) ∧
      ∀ r ∈ Session.run (answering features handlers) s ops, r.ends = false →
        ∀ q ∈ requestsOf r.history, q.closed? = none ∧ q.unlinked? = none := by
  induction ops generalizing past s with
  | nil =>
    refine ⟨?_, fun r hr => absurd hr (by simp [Session.run])⟩
    rw [Session.run, List.append_nil]
    exact h
  | cons op ops ih =>
    obtain ⟨hbooks, hquiet⟩ := ih (h.step handlers op)
    rw [Session.run, final]
    refine ⟨?_, fun r hr hends => ?_⟩
    · rw [List.append_assoc] at hbooks
      exact hbooks
    · rcases List.mem_cons.mp hr with rfl | hr
      · exact h.quiet handlers op hends
      · exact hquiet r hr hends

/-- In any session, on any platforms and whatever these answer, every number has one settled
account at most, and nothing is closed or unlinked but by what ends a journal. -/
theorem descriptors_accounted (features : Nat → Features) (handlers : Nat → Handler Steps W)
    (w : W) (ops : List Operation) :
    let records := run (answering features handlers) (start w) ops
    (∀ j, (openings features j records = [] ∧ story j records = []) ∨
      ∃ o, openings features j records = [o] ∧ Settled o (isOver j records) (story j records)) ∧
    ∀ r ∈ records, r.ends = false →
      ∀ q ∈ requestsOf r.history, q.closed? = none ∧ q.unlinked? = none := by
  intro records
  obtain ⟨hbooks, hquiet⟩ := (books_start features w).run handlers ops
  exact ⟨fun j => (hbooks j).settled, hquiet⟩

end Session

end WriteAhead
