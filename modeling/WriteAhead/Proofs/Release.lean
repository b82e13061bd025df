/-
# What a release does

A release unlinks the file if it is ephemeral and closes the descriptor, whatever either of them is
answered.  The handle that is left has no descriptor, so that going out of use afterwards asks for
nothing more.

Main statements:

* `drop_of_descriptor_eq_none` : a released handle goes out of use in silence;
* `requests_release` : the steps of a release do not depend on their replies;
* `value_abort_fixed` : a failed unlink is what a rollback reports, and otherwise the cause.
-/
import WriteAhead.Journal.Open
import WriteAhead.Proofs.Requests

namespace WriteAhead

open Program

namespace Handle

variable {W : Type} (t : Features) (h : Handle)

@[simp] theorem descriptor_released : h.released.descriptor = none := rfl

/-! ## Going out of use -/

theorem release_of_descriptor_eq_none (hd : h.descriptor = none) :
    h.release t = .done (.ok (), h) := by
  unfold release
  rw [hd]
  rfl

theorem release_of_descriptor_eq_some {d : Descriptor} (hd : h.descriptor = some d) :
    h.release t = unlinkIfAny (h.unlinkPath? t) >>= fun unlinked =>
      closeAfter d unlinked >>= fun result => .done (result, h.released) := by
  unfold release
  rw [hd]
  rfl

/-- A released handle goes out of use in silence. -/
theorem drop_of_descriptor_eq_none (hd : h.descriptor = none) : h.drop t = .done h := by
  unfold drop
  rw [release_of_descriptor_eq_none t h hd]
  rfl

/-- Whatever follows a release sees a handle that goes out of use in silence. -/
theorem release_bind_congr {α : Type} {f g : Except JournalError Unit × Handle → StepProgram α}
    (hfg : ∀ result h', h'.descriptor = none → f (result, h') = g (result, h')) :
    (h.release t >>= f) = h.release t >>= g := by
  cases hd : h.descriptor with
  | none =>
    rw [release_of_descriptor_eq_none t h hd]
    exact hfg _ _ hd
  | some d =>
    rw [release_of_descriptor_eq_some t h hd]
    simp only [bind_assoc, done_bind]
    have hrest : (fun result => f (result, h.released)) =
        fun result => g (result, h.released) := by
      funext result
      exact hfg _ _ (descriptor_released h)
    rw [hrest]

/-- A close is a release that is noted. -/
theorem close_eq :
    h.close t = h.release t >>= fun r => .note (.closed r.2.path r.1.isOk) (.done r) := by
  unfold close
  apply release_bind_congr
  intro result h' hd
  simp [emit, drop_of_descriptor_eq_none t h' hd]

/-- A rollback is a release whose outcome decides about the error. -/
theorem abort_eq (cause : JournalError) :
    h.abort t cause =
      h.release t >>= fun r => rollbackError (h.path.getD Path.empty) cause r.1 := by
  unfold abort
  apply release_bind_congr
  intro result h' hd
  simp only [drop_of_descriptor_eq_none t h' hd, done_bind, pure_eq_done]
  exact bind_done _

/-! ## The steps of a release -/

/-- The steps that release a handle with descriptor `d`. -/
def releaseSteps (d : Descriptor) : List Step :=
  (h.unlinkPath? t).toList.map Step.unlink ++ [.close d]

theorem requests_unlinkIfAny (p : Option Path) (hd : Handler Steps W) (w : W) :
    ((unlinkIfAny p).run hd w).requests = p.toList.map Step.unlink := by
  cases p with
  | none => rfl
  | some p =>
    simp only [unlinkIfAny, Step.take, ask_bind, done_bind, run_ask, Run.requests_after]
    rcases (hd (.unlink p) w).1 with e | u <;> simp

theorem requests_closeAfter (d : Descriptor) (unlinked : Except JournalError Unit)
    (hd : Handler Steps W) (w : W) :
    ((closeAfter d unlinked).run hd w).requests = [.close d] := by
  simp only [closeAfter, Step.take, ask_bind, done_bind, run_ask, Run.requests_after]
  rcases (hd (.close d) w).1 with e | u
  · rcases unlinked with first | u <;> simp [emit]
  · simp

/-- The steps of a release do not depend on their replies. -/
theorem requests_release {d : Descriptor} (hdesc : h.descriptor = some d)
    (hd : Handler Steps W) (w : W) :
    ((h.release t).run hd w).requests = h.releaseSteps t d := by
  rw [release_of_descriptor_eq_some t h hdesc, requests_run_bind, requests_run_bind,
    requests_unlinkIfAny, requests_closeAfter]
  simp [releaseSteps]

theorem requests_rollbackError (path : Path) (cause : JournalError)
    (released : Except JournalError Unit) (hd : Handler Steps W) (w : W) :
    ((rollbackError path cause released).run hd w).requests = [] := by
  rcases released with e | u
  · cases e <;> rfl
  · rfl

theorem requests_close {d : Descriptor} (hdesc : h.descriptor = some d)
    (hd : Handler Steps W) (w : W) :
    ((h.close t).run hd w).requests = h.releaseSteps t d := by
  rw [close_eq, requests_run_bind, requests_release t h hdesc]
  simp

theorem requests_drop {d : Descriptor} (hdesc : h.descriptor = some d)
    (hd : Handler Steps W) (w : W) :
    ((h.drop t).run hd w).requests = h.releaseSteps t d := by
  unfold drop
  rw [requests_run_bind, requests_release t h hdesc]
  rcases ((h.release t).run hd w).value with ⟨e | u, h'⟩ <;> simp [emit]

theorem requests_abort {d : Descriptor} (hdesc : h.descriptor = some d) (cause : JournalError)
    (hd : Handler Steps W) (w : W) :
    ((h.abort t cause).run hd w).requests = h.releaseSteps t d := by
  rw [abort_eq, requests_run_bind, requests_release t h hdesc, requests_rollbackError]
  simp

/-! ## What a rollback reports -/

/-- The error reported for a rollback, when each step has one reply. -/
def rollbackReport (reply : (s : Step) → s.Reply) (cause : JournalError) : JournalError :=
  match h.unlinkPath? t with
  | none => cause
  | some p =>
    match reply (.unlink p) with
    | .ok () => cause
    | .error e => .unlink p e

theorem value_unlinkIfAny_fixed (reply : (s : Step) → s.Reply) (p : Option Path) (w : Unit) :
    ((unlinkIfAny p).run (fixed reply) w).value =
      match p with
      | none => .ok ()
      | some p =>
        match reply (.unlink p) with
        | .ok () => .ok ()
        | .error e => .error (.unlink p e) := by
  cases p with
  | none => rfl
  | some p =>
    simp only [unlinkIfAny, Step.take, ask_bind, done_bind, run_ask, Run.value_after, fixed_apply]
    rcases reply (.unlink p) with e | u <;> simp

theorem value_closeAfter_fixed (reply : (s : Step) → s.Reply) (d : Descriptor)
    (unlinked : Except JournalError Unit) (w : Unit) :
    ((closeAfter d unlinked).run (fixed reply) w).value =
      match unlinked, reply (.close d) with
      | .error first, _ => .error first
      | .ok (), .ok () => .ok ()
      | .ok (), .error e => .error (.close e) := by
  simp only [closeAfter, Step.take, ask_bind, done_bind, run_ask, Run.value_after, fixed_apply]
  rcases reply (.close d) with e | u <;> rcases unlinked with first | u <;> simp [emit]

/-- A failed unlink is what a rollback reports; whether the close fails makes no difference. -/
theorem value_abort_fixed {d : Descriptor} (hdesc : h.descriptor = some d)
    (reply : (s : Step) → s.Reply) (cause : JournalError) (w : Unit) :
    ((h.abort t cause).run (fixed reply) w).value = h.rollbackReport t reply cause := by
  rw [abort_eq, release_of_descriptor_eq_some t h hdesc]
  simp only [run_bind, run_done, Run.value_after, Run.world_after, value_unlinkIfAny_fixed,
    value_closeAfter_fixed]
  unfold rollbackReport
  cases h.unlinkPath? t with
  | none =>
    rcases reply (.close d) with e | u <;> simp [rollbackError, emit]
  | some p =>
    simp only
    rcases reply (.unlink p) with e | u
    · simp [rollbackError, emit]
    · rcases reply (.close d) with e | u <;> simp [rollbackError, emit]

end Handle

end WriteAhead
