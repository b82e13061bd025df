/-
# What forces nothing to stable storage

Of the steps that a platform takes for a journal, a flush and the sync of a directory force
something to stable storage.  The native platform takes every other step without a sync, and an
opening or a write asks for no step but those.

* `Posix.asks_serve` : the calls of a step that forces nothing;
* `Posix.not_synced_run` : a program of such steps makes no sync.
-/
import WriteAhead.Platform.Posix
import WriteAhead.Proofs.Uses

namespace WriteAhead

open Program

/-! ## Steps that force nothing -/

namespace Step

/-- The step forces nothing to stable storage. -/
def Unforced : Step → Prop
  | flush _ | syncDirectoryFor _ => False
  | _ => True

end Step

namespace SystemCall

/-- The call forces nothing to stable storage. -/
def Unforced : SystemCall → Prop
  | sync _ => False
  | _ => True

end SystemCall

namespace Posix

theorem asks_persist {Q : SystemCall → Prop} {c : SystemCall} (hc : Q c) (patience : Nat) :
    (persist c patience).Asks Q := by
  induction patience with
  | zero => exact Asks.request hc
  | succ patience ih =>
    refine ⟨hc, fun r => ?_⟩
    cases r with
    | ok a => trivial
    | error code =>
      show Asks (I := System) Q (if code = Errno.interrupted then _ else _)
      split
      · exact ih
      · trivial

theorem asks_once {Q : SystemCall → Prop} {c : SystemCall} (hc : Q c) : (once c).Asks Q :=
  ⟨hc, fun _ => trivial⟩

theorem asks_openPath {Q : SystemCall → Prop} {p : Path} {mode : OpenMode}
    (hopen : Q (.open_ p mode)) (patience : Nat) : (openPath patience p mode).Asks Q := by
  unfold openPath
  split
  · trivial
  · exact (asks_persist hopen patience).bind fun _ => trivial

theorem asks_setLength {Q : SystemCall → Prop} {d : Descriptor} {size : UInt64}
    (hset : Q (.setLength d size)) (patience : Nat) : (setLength patience d size).Asks Q := by
  unfold setLength
  split
  · trivial
  · exact (asks_persist hset patience).bind fun _ => trivial

theorem asks_resize {Q : SystemCall → Prop} {d : Descriptor} {size : UInt64}
    (hlength : Q (.length d)) (hallocate : Q (.allocate d size)) (hset : Q (.setLength d size))
    (patience : Nat) : ((resizer patience d).resize size).Asks Q := by
  have hpin : ((resizer patience d).pin size).Asks Q := by
    refine (asks_setLength hset patience).bind fun r => ?_
    rcases r with e | u <;> trivial
  refine (asks_once hlength).bind fun r => ?_
  rcases r with e | current
  · trivial
  · show Asks (I := System) Q (if current < size.toNat then _ else _)
    split
    · refine (asks_once hallocate).bind fun r => ?_
      rcases r with e | u
      · show Asks (I := System) Q (if (resizer patience d).isUnsupported e then _ else _)
        split
        · exact hpin
        · trivial
      · exact hpin
    · exact hpin

/-- A step that forces nothing is taken without a sync. -/
theorem asks_serve {s : Step} (hs : s.Unforced) (patience : Nat) :
    (serve patience s).Asks SystemCall.Unforced := by
  cases s with
  | openForWrite p flags => exact asks_openPath trivial patience
  | openForRead p => exact asks_openPath trivial patience
  | finishUnbuffered d => trivial
  | writeAt d bytes offset => exact asks_once trivial
  | readAt d count offset =>
    refine (asks_once trivial).bind fun r => ?_
    rcases r with e | bytes <;> trivial
  | flush d => exact absurd hs id
  | fileSize d =>
    refine (asks_once trivial).bind fun r => ?_
    rcases r with e | n <;> trivial
  | resize d size => exact asks_resize trivial trivial trivial patience
  | preallocate d n => exact asks_once trivial
  | systemLength d => exact asks_once trivial
  | setSystemLength d n => exact asks_setLength trivial patience
  | syncDirectoryFor p => exact absurd hs id
  | unlink p =>
    show (unlink p).Asks SystemCall.Unforced
    unfold unlink
    split
    · trivial
    · exact asks_once trivial
  | close d => exact asks_once trivial
  | entryExists p =>
    show (entryExists p).Asks SystemCall.Unforced
    unfold entryExists
    split
    · trivial
    · refine (Asks.request trivial).bind fun r => ?_
      rcases r with e | u <;> trivial

end Posix

namespace Handle

theorem asks_abort (t : Features) (h : Handle) (cause : JournalError) :
    (h.abort t cause).Asks Step.Unforced := by
  have hreport : ∀ p released,
      (rollbackError p cause released).Asks Step.Unforced := by
    intro p released
    rcases released with e | u
    · cases e <;> trivial
    · trivial
  rw [abort_eq]
  refine Asks.bind ?_ fun r => hreport _ _
  cases hd : h.descriptor with
  | none =>
    rw [release_of_descriptor_eq_none t h hd]
    trivial
  | some d =>
    rw [release_of_descriptor_eq_some t h hd]
    refine Asks.bind ?_ fun unlinked => Asks.bind ?_ fun _ => trivial
    · cases h.unlinkPath? t with
      | none => trivial
      | some p =>
        refine Asks.bind (Asks.request trivial) fun r => ?_
        rcases r with e | u <;> trivial
    · refine Asks.bind (Asks.request trivial) fun r => ?_
      rcases r with e | u
      · rcases unlinked with first | u <;> trivial
      · trivial

end Handle

namespace Journal

/-- Opening a journal forces nothing to stable storage. -/
theorem asks_openForWrite (t : Features) (p : Path) (mode : JournalMode) (size : UInt64)
    (support : DurabilitySupport) :
    (openForWrite t p mode size support).Asks Step.Unforced := by
  unfold openForWrite
  split
  · trivial
  · refine Asks.bind (Asks.request trivial) fun r => ?_
    rcases r with e | d
    · trivial
    · refine Asks.bind (asks_prepare _ d size trivial trivial trivial) fun r => ?_
      rcases r with cause | n
      · exact Asks.bind (Handle.asks_abort t _ cause) fun _ => trivial
      · trivial

end Journal

namespace Handle

theorem asks_write_unforced (h : Handle) (bytes : Bytes) (offset : UInt64) :
    (h.write bytes offset).Asks Step.Unforced := by
  unfold write withFile
  cases h.descriptor with
  | none => trivial
  | some d => exact asks_writeRest d offset _ 0 bytes fun _ _ => trivial

end Handle

namespace Posix

/-- What asks for no step that forces anything runs without a sync. -/
theorem not_synced_run {W α : Type} {prog : StepProgram α} (h : prog.Asks Step.Unforced)
    (patience : Nat) (handler : Handler System W) (w : W) (d : Descriptor) (r : Except Int Unit) :
    .answered (.sync d) r ∉ ((native patience prog).run handler w).history := by
  intro hmem
  have hasks : (native patience prog).Asks SystemCall.Unforced :=
    h.through fun s hs => asks_serve hs patience
  have hrequest : SystemCall.sync d ∈ ((native patience prog).run handler w).requests :=
    mem_requestsOf.mpr ⟨r, hmem⟩
  exact hasks.requests handler w _ hrequest

end Posix

end WriteAhead
