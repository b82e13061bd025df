/-
# Closing and dropping

A journal ends when its handle is closed or goes out of use, and both release the handle.  They
make the same requests and leave the same world; only a close reports what failed, and of two
failures the first.  What is left of the handle has nothing to release.

Main statements:

* `Handle.value_release` : a release reports the first failure among its calls;
* `Session.close_drop_agree` : the two ways to end any journal of any session.
-/
import WriteAhead.Proofs.Accounting

namespace WriteAhead

open Program

variable {W : Type}

namespace Handle

/-! ## The first failure -/

/-- What a failed call of a release is reported as. -/
def failure? : Happening Steps Event → Option JournalError
  | .answered (.unlink p) (.error e) => some (.unlink p e)
  | .answered (.close _) (.error e) => some (.close e)
  | _ => none

/-- What comes of the calls of a release: the first failure, if one failed. -/
def firstFailure (history : List (Happening Steps Event)) : Except JournalError Unit :=
  match history.findSome? failure? with
  | some e => .error e
  | none => .ok ()

/-- Of two rows of calls, the second one decides only if nothing failed in the first. -/
theorem firstFailure_append (xs ys : List (Happening Steps Event)) :
    firstFailure (xs ++ ys) = firstFailure xs >>= fun _ => firstFailure ys := by
  unfold firstFailure
  rw [List.findSome?_append]
  cases xs.findSome? failure? <;> rfl

/-! ## Releasing -/

variable (t : Features) (h : Handle) (hd : Handler Steps W) (w : W)

theorem value_unlinkIfAny (p : Option Path) :
    let r := (unlinkIfAny p).run hd w
    r.value = firstFailure r.history := by
  cases p with
  | none => rfl
  | some p =>
    simp only [unlinkIfAny, Step.take, ask_bind, done_bind, run_ask, Run.value_after,
      Run.history_after]
    rcases (hd (.unlink p) w).1 with e | u <;> rfl

theorem value_closeAfter (d : Descriptor) (unlinked : Except JournalError Unit) :
    let r := (closeAfter d unlinked).run hd w
    r.value = unlinked >>= fun _ => firstFailure r.history := by
  simp only [closeAfter, Step.take, ask_bind, done_bind, run_ask, Run.value_after,
    Run.history_after]
  rcases (hd (.close d) w).1 with e | u
  · rcases unlinked with first | u <;> rfl
  · rcases unlinked with first | u <;> rfl

/-- A release reports the first failure among its calls. -/
theorem value_release {d : Descriptor} (hdesc : h.descriptor = some d) :
    let r := (h.release t).run hd w
    r.value = (firstFailure r.history, h.released) := by
  intro r
  have hrun : r = (unlinkIfAny (h.unlinkPath? t) >>= fun unlinked =>
      closeAfter d unlinked >>= fun result => done (result, h.released)).run hd w := by
    rw [← release_of_descriptor_eq_some t h hdesc]
  rw [hrun, run_bind, run_bind]
  simp only [run_done, Run.value_after, Run.history_after, List.append_nil]
  rw [value_closeAfter, firstFailure_append, ← value_unlinkIfAny]

/-! ## Closing and going out of use -/

/-- A close is a release, of which the outcome is noted and reported. -/
theorem run_close :
    let r := (h.release t).run hd w
    (h.close t).run hd w =
      ⟨r.value, r.world, r.history ++ [.noted (.closed r.value.2.path r.value.1.isOk)]⟩ := by
  rw [close_eq, run_bind]
  rfl

/-- Going out of use is a release, of which only a failure is noted. -/
theorem run_drop :
    let r := (h.release t).run hd w
    (h.drop t).run hd w =
      ⟨r.value.2, r.world, r.history ++
        match r.value.1 with
        | .ok () => []
        | .error e => [.noted (.dropFailed e)]⟩ := by
  intro r
  unfold drop
  rw [run_bind]
  show Run.after r.history _ = _
  rcases r.value with ⟨e | u, h'⟩ <;> rfl

/-- A handle that was released has nothing to release, on any platform. -/
theorem run_of_descriptor_eq_none (hdesc : h.descriptor = none) :
    (h.release t).run hd w = ⟨(.ok (), h), w, []⟩ ∧ (h.drop t).run hd w = ⟨h, w, []⟩ := by
  rw [release_of_descriptor_eq_none t h hdesc, drop_of_descriptor_eq_none t h hdesc]
  exact ⟨rfl, rfl⟩

/-- The steps of a release unlink the path of an ephemeral file, unless the platform removes it. -/
theorem releaseSteps_cases {d : Descriptor}
    (hpath : h.deleteOnClose = true → ∃ p, h.path = some p) :
    (h.deleteOnClose = true ∧ t.deletesOnClose = false ∧
        ∃ p, h.path = some p ∧ h.releaseSteps t d = [.unlink p, .close d]) ∨
      ((h.deleteOnClose = false ∨ t.deletesOnClose = true) ∧ h.releaseSteps t d = [.close d]) := by
  unfold releaseSteps unlinkPath?
  cases hephemeral : h.deleteOnClose with
  | false => exact .inr ⟨.inl rfl, rfl⟩
  | true =>
    cases hdeletes : t.deletesOnClose with
    | true => exact .inr ⟨.inr rfl, rfl⟩
    | false =>
      obtain ⟨p, hp⟩ := hpath hephemeral
      rw [hp]
      exact .inl ⟨rfl, rfl, p, rfl, rfl⟩

end Handle

/-! ## Journals of a session -/

/-- Whatever an operation opens is not ephemeral without a path. -/
theorem Operation.path_of_opening? {features : Nat → Features} {op : Operation}
    {o : Opening features} (hop : op.opening? features = some o) (d : Descriptor)
    (hephemeral : (o.handle d).deleteOnClose = true) : ∃ p, (o.handle d).path = some p := by
  cases op with
  | openForWrite on path mode size support =>
    obtain rfl := Option.some.inj hop
    exact ⟨path, rfl⟩
  | openForRead on path =>
    obtain rfl := Option.some.inj hop
    exact absurd hephemeral (by simp [Opening.forRead])
  | _ => exact absurd hop (by simp [opening?])

/-- A live journal is what its opening hands out. -/
theorem Life.exists_handle {features : Nat → Features} {o : Opening features}
    {ds : List Descriptor} {steps : List Step} {l : LiveJournal} (h : Life o ds steps (some l)) :
    ∃ d, l = ⟨o.on, o.handle d⟩ := by
  cases h with
  | running d uses huses => exact ⟨d, rfl⟩

namespace Session

variable {features : Nat → Features} {past : List (Record Steps W)} {s : Session W} {j : Nat}
  {l : LiveJournal}

/-- A journal that is open has a descriptor, and a path if it is ephemeral. -/
theorem Books.live (h : Books features past s) (hl : s.live? j = some l) :
    ∃ d, l.handle.descriptor = some d ∧
      (l.handle.deleteOnClose = true → ∃ p, l.handle.path = some p) := by
  have haccount := h j
  rw [live?_eq_some hl] at haccount
  generalize hos : openings features j past = os at haccount
  generalize story j past = history at haccount
  generalize isOver j past = ended at haccount
  cases haccount with
  | kept o _ _ life =>
    obtain ⟨d, rfl⟩ := life.exists_handle
    refine ⟨d, o.descriptor_handle d, fun hephemeral => ?_⟩
    have ho : o ∈ openings features j past := by
      rw [hos]
      exact List.mem_singleton_self o
    obtain ⟨r, -, hop⟩ := List.mem_filterMap.mp ho
    exact Operation.path_of_opening? hop d hephemeral

/-- What ends a journal leaves the session that the run leaves, without the journal. -/
theorem after_ended (features : Nat → Features) (handlers : Nat → Handler Steps W) {α : Type}
    (op : Operation) (p : Features → Handle → StepProgram α) (answer : α → Outcome Answer)
    (hl : s.live? j = some l) :
    (s.ended (answering features handlers) op j p answer).after =
      ⟨((p (features l.on) l.handle).run (handlers l.on) s.world).world,
        s.journals.set j none⟩ := by
  unfold ended
  rw [hl]
  simp only [run_answering]
  rfl

/-- **Closing a journal and dropping it come to the same, and the first failure is reported.**  In
any session, on any platforms and whatever these answer, the close of a journal that is open unlinks
its path exactly if it is ephemeral and the platform does not delete on close itself, and then
closes its descriptor in any case; it reports the first of the two that failed.  A release and a
drop of the same journal make the same requests and leave the same world, and a drop leaves the same
session.  What is left of the handle is released and dropped without any request, on any
platform. -/
theorem close_drop_agree (features : Nat → Features) (handlers : Nat → Handler Steps W) (w : W)
    (ops : List Operation) (j : Nat) :
    let platforms := answering features handlers
    let s := final platforms (start w) ops
    ∀ l, s.live? j = some l →
      let t := features l.on
      let releasing := (l.handle.release t).run (handlers l.on) s.world
      let closing := (l.handle.close t).run (handlers l.on) s.world
      let dropping := (l.handle.drop t).run (handlers l.on) s.world
      let left := closing.value.2
      (∃ d, l.handle.descriptor = some d ∧
        ((l.handle.deleteOnClose = true ∧ t.deletesOnClose = false ∧
            ∃ p, l.handle.path = some p ∧ closing.requests = [.unlink p, .close d]) ∨
          ((l.handle.deleteOnClose = false ∨ t.deletesOnClose = true) ∧
            closing.requests = [.close d]))) ∧
      closing.value.1 = Handle.firstFailure closing.history ∧
      (releasing.requests = closing.requests ∧ releasing.world = closing.world ∧
        releasing.value = closing.value) ∧
      (dropping.requests = closing.requests ∧ dropping.world = closing.world ∧
        (s.step platforms (.drop j)).after = (s.step platforms (.close j)).after) ∧
      ∀ (t' : Features) (h' : Handler Steps W) (w' : W),
        (left.release t').run h' w' = ⟨(.ok (), left), w', []⟩ ∧
          (left.drop t').run h' w' = ⟨left, w', []⟩ := by
  intro platforms s l hl t releasing closing dropping left
  have hbooks := ((books_start features w).run handlers ops).1
  obtain ⟨d, hdesc, hpath⟩ := hbooks.live hl
  have hclosing : closing = ⟨releasing.value, releasing.world, releasing.history ++
      [.noted (.closed releasing.value.2.path releasing.value.1.isOk)]⟩ :=
    l.handle.run_close t (handlers l.on) s.world
  have hdropping : dropping.world = releasing.world :=
    congrArg Run.world (l.handle.run_drop t (handlers l.on) s.world)
  have hvalue : closing.value = releasing.value := by rw [hclosing]
  have hworld : closing.world = releasing.world := by rw [hclosing]
  have hsame : dropping.world = closing.world := hdropping.trans hworld.symm
  have hleft : left.descriptor = none := by
    show closing.value.2.descriptor = none
    rw [hvalue, Handle.value_release t l.handle _ _ hdesc]
    exact Handle.descriptor_released l.handle
  have hrequests : closing.requests = l.handle.releaseSteps t d :=
    l.handle.requests_close t hdesc _ _
  refine ⟨⟨d, hdesc, ?_⟩, ?_, ⟨?_, hworld.symm, hvalue.symm⟩, ⟨?_, hsame, ?_⟩, ?_⟩
  · rw [hrequests]
    exact l.handle.releaseSteps_cases t hpath
  · -- the note of the close stands behind the calls of the release, and is no failure
    have hhistory : Handle.firstFailure closing.history =
        Handle.firstFailure releasing.history := by
      rw [hclosing, Handle.firstFailure_append]
      cases Handle.firstFailure releasing.history <;> rfl
    rw [hhistory, hvalue, Handle.value_release t l.handle _ _ hdesc]
  · exact (l.handle.requests_release t hdesc _ _).trans hrequests.symm
  · exact (l.handle.requests_drop t hdesc _ _).trans hrequests.symm
  · calc (s.step platforms (.drop j)).after
        = ⟨dropping.world, s.journals.set j none⟩ := after_ended features handlers _ _ _ hl
      _ = ⟨closing.world, s.journals.set j none⟩ := by rw [hsame]
      _ = (s.step platforms (.close j)).after := (after_ended features handlers _ _ _ hl).symm
  · intro t' h' w'
    exact left.run_of_descriptor_eq_none t' h' w' hleft

/-- Both calls fail that end an ephemeral journal, and the first failure is the one reported. -/
theorem close_drop_agree_both_fail :
    let decide : Policy Unit := fun c s =>
      match c with
      | .unlink _ => (.fail Errno.noEntry, s)
      | .close _ => (.fail Errno.invalidArgument, s)
      | _ => (.proceed, s)
    let handlers := fun _ : Nat => served (Posix.serve 0) decide.handler
    let s := final (answering (fun _ => Features.posix) handlers)
      (start (Machine.ofTree FileTree.empty [], ()))
      [.openForWrite 0 ⟨[106]⟩ .pureMemory 4 .supported]
    let h : Handle := ⟨some ⟨0, ⟨[106]⟩⟩, some ⟨[106]⟩, true⟩
    let closing := (h.close Features.posix).run (handlers 0) s.world
    s.live? 0 = some ⟨0, h⟩ ∧ closing.requests = [.unlink ⟨[106]⟩, .close ⟨0, ⟨[106]⟩⟩] ∧
      closing.value.1 = .error (.unlink ⟨[106]⟩ (.code Errno.noEntry)) ∧
      ((h.drop Features.posix).run (handlers 0) s.world).world = closing.world := by
  intro decide handlers s h closing
  have hl : s.live? 0 = some ⟨0, h⟩ := by decide +kernel
  obtain ⟨⟨d, hd, hcalls⟩, hvalue, -, ⟨-, hworld, -⟩, -⟩ :=
    close_drop_agree (fun _ => Features.posix) handlers (Machine.ofTree FileTree.empty [], ())
      [.openForWrite 0 ⟨[106]⟩ .pureMemory 4 .supported] 0 _ hl
  obtain rfl : (⟨0, ⟨[106]⟩⟩ : Descriptor) = d := Option.some.inj hd
  refine ⟨hl, ?_, ?_, hworld⟩
  · rcases hcalls with ⟨-, -, p, hp, hrequests⟩ | ⟨hno, -⟩
    · obtain rfl : (⟨[106]⟩ : Path) = p := Option.some.inj hp
      exact hrequests
    · exact absurd hno (by decide)
  · exact hvalue

end Session

end WriteAhead
