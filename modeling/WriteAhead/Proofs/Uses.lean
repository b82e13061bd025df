/-
# Using a journal

The steps that use an open journal: they all work on its own descriptor, and none of them opens,
closes or unlinks anything.  Every operation but the release asks for such steps only.
-/
import WriteAhead.Journal.Transfer
import WriteAhead.Proofs.Rollback

namespace WriteAhead

open Program

namespace Step

/-- The step uses the journal that is open as `d`. -/
def Uses (d : Descriptor) : Step → Prop
  | finishUnbuffered d' | fileSize d' | resize d' _ | writeAt d' _ _ | readAt d' _ _ | flush d' =>
    d' = d
  | syncDirectoryFor _ => True
  | _ => False

/-- The descriptor that a step works on. -/
def descriptor? : Step → Option Descriptor
  | finishUnbuffered d | writeAt d _ _ | readAt d _ _ | flush d | fileSize d | resize d _
  | preallocate d _ | systemLength d | setSystemLength d _ | close d => some d
  | openForWrite _ _ | openForRead _ | syncDirectoryFor _ | unlink _ | entryExists _ => none

/-- The descriptor that a step closes. -/
def closed? : Step → Option Descriptor
  | close d => some d
  | _ => none

/-- The path that a step unlinks. -/
def unlinked? : Step → Option Path
  | unlink p => some p
  | _ => none

/-- The step opens a file. -/
def opens : Step → Bool
  | openForWrite _ _ | openForRead _ => true
  | _ => false

theorem Uses.closed? {d : Descriptor} {s : Step} (h : s.Uses d) : s.closed? = none := by
  cases s with
  | close d' => exact absurd h id
  | _ => rfl

theorem Uses.unlinked? {d : Descriptor} {s : Step} (h : s.Uses d) : s.unlinked? = none := by
  cases s with
  | unlink p => exact absurd h id
  | _ => rfl

theorem Uses.opens {d : Descriptor} {s : Step} (h : s.Uses d) : s.opens = false := by
  cases s with
  | openForWrite p flags => exact absurd h id
  | openForRead p => exact absurd h id
  | _ => rfl

/-- A use works on its own journal's descriptor alone. -/
theorem Uses.descriptor? {d d' : Descriptor} {s : Step} (h : s.Uses d)
    (hd : s.descriptor? = some d') : d' = d := by
  cases s with
  | finishUnbuffered e | writeAt e _ _ | readAt e _ _ | flush e | fileSize e | resize e _ =>
    obtain rfl := Option.some.inj hd
    exact h
  | syncDirectoryFor p => exact absurd hd (by simp [Step.descriptor?])
  | _ => exact absurd h id

theorem closed?_of_opens {s : Step} (h : s.opens = true) : s.closed? = none := by
  cases s with
  | close d => exact absurd h (by simp [Step.opens])
  | _ => rfl

theorem unlinked?_of_opens {s : Step} (h : s.opens = true) : s.unlinked? = none := by
  cases s with
  | unlink p => exact absurd h (by simp [Step.opens])
  | _ => rfl

theorem descriptor?_of_opens {s : Step} (h : s.opens = true) : s.descriptor? = none := by
  cases s with
  | openForWrite p flags => rfl
  | openForRead p => rfl
  | _ => exact absurd h (by simp [Step.opens])

end Step

/-! ## What the operations ask for -/

namespace Journal

/-- Preparing a file finishes its opening, asks for its size, and resizes it. -/
theorem asks_prepare (flags : OpenFlags) (d : Descriptor) (size : UInt64) {Q : Step → Prop}
    (hfinish : Q (.finishUnbuffered d)) (hsize : Q (.fileSize d)) (hresize : Q (.resize d size)) :
    (prepare flags d size).Asks Q := by
  unfold prepare finishUnbuffered grow
  refine Asks.bind ?_ fun r => ?_
  · split
    · refine Asks.bind (Asks.request hfinish) fun r => ?_
      rcases r with e | u <;> exact trivial
    · exact trivial
  · rcases r with e | u
    · exact trivial
    · refine Asks.bind (Asks.request hsize) fun r => ?_
      rcases r with e | current
      · exact trivial
      · show Asks _ (if current < size.toNat then _ else _)
        split
        · refine Asks.bind (Asks.request hresize) fun r => ?_
          rcases r with e | u <;> exact trivial
        · exact trivial

end Journal

namespace Handle

/-- A write asks for nothing but writes. -/
theorem asks_writeRest (d : Descriptor) (offset : UInt64) (total written : Nat) (rest : Bytes)
    {Q : Step → Prop} (hwrite : ∀ bytes position, Q (.writeAt d bytes position)) :
    (writeRest d offset total written rest).Asks Q := by
  fun_induction writeRest d offset total written rest with
  | case1 written => trivial
  | case2 written rest hrest p hp => trivial
  | case3 written rest hrest position hp ih =>
    refine ⟨hwrite _ _, fun r => ?_⟩
    cases r with
    | error e => trivial
    | ok n =>
      show Asks _ (if n = 0 then _ else _)
      split
      · trivial
      · next hn =>
        split
        · trivial
        · exact ih n hn _

/-- A read asks for nothing but reads. -/
theorem asks_readRest (d : Descriptor) (offset : UInt64) (filled : Nat) (buffer : Bytes)
    (left : Nat) {Q : Step → Prop} (hread : ∀ count position, Q (.readAt d count position)) :
    (readRest d offset filled buffer left).Asks Q := by
  fun_induction readRest d offset filled buffer left with
  | case1 filled buffer => trivial
  | case2 filled buffer left p hp => trivial
  | case3 filled buffer left position hp ih =>
    refine ⟨hread _ _, fun r => ?_⟩
    cases r with
    | error e => trivial
    | ok t =>
      show Asks _ (if t.count = 0 then _ else _)
      split
      · trivial
      · next ht =>
        split
        · trivial
        · exact ih t ht _

/-- A truncation flushes and resizes the file, and syncs the directory of its path, if it has
one. -/
theorem asks_truncateFile (path : Option Path) (d : Descriptor) (size : UInt64) {Q : Step → Prop}
    (hflush : Q (.flush d)) (hresize : Q (.resize d size))
    (hdirectory : ∀ p, path = some p → Q (.syncDirectoryFor p)) :
    (truncateFile path d size).Asks Q := by
  unfold truncateFile
  refine Asks.bind (Asks.request hflush) fun flushed => ?_
  rcases flushed with e | u
  · trivial
  · refine Asks.bind (Asks.request hresize) fun resized => ?_
    rcases resized with e | u
    · trivial
    · refine Asks.bind (Asks.request hflush) fun flushed => ?_
      rcases flushed with e | u
      · trivial
      · cases path with
        | none => trivial
        | some p => exact Asks.request (hdirectory p rfl)

/-! ## The operations on a live handle -/

variable (h : Handle) {d : Descriptor} (hd : h.descriptor = some d)

include hd

theorem asks_write (bytes : Bytes) (offset : UInt64) :
    (h.write bytes offset).Asks (Step.Uses d) := by
  unfold write withFile
  rw [hd]
  exact asks_writeRest d offset _ 0 bytes fun _ _ => rfl

theorem asks_read (buffer : Bytes) (offset : UInt64) :
    (h.read buffer offset).Asks (Step.Uses d) := by
  unfold read
  rw [hd]
  exact asks_readRest d offset 0 buffer _ fun _ _ => rfl

theorem asks_truncate_of (size : UInt64) {Q : Step → Prop} (hflush : Q (.flush d))
    (hresize : Q (.resize d size)) (hdirectory : ∀ p, h.path = some p → Q (.syncDirectoryFor p)) :
    (h.truncate size).Asks Q := by
  unfold truncate withFile
  rw [hd]
  refine Asks.bind (asks_truncateFile h.path d size hflush hresize hdirectory) fun result => ?_
  rcases result with e | u <;> trivial

theorem asks_truncate (size : UInt64) : (h.truncate size).Asks (Step.Uses d) :=
  h.asks_truncate_of hd size rfl rfl fun _ _ => trivial

theorem asks_size : h.size.Asks (Step.Uses d) := by
  unfold size withFile
  rw [hd]
  exact Asks.bind (Asks.request rfl) fun _ => trivial

end Handle

end WriteAhead
