/-
# Resizing on any platform

A resize asks for the length, reserves the space that is missing, and sets the length at the end.
Any of the three may fail, a reservation may go too far, and one that a file system does not
support is passed over.  Whatever comes of them, a resize that succeeds gives the file exactly the
length, and one that fails takes no byte away.

Main statements:

* `Resizer.resize_course` : the courses that a resize can take;
* `Resizer.resize_exact_or_harmless` : what each of them asks for, reports and leaves;
* `Posix.resizable` : a POSIX machine is such a platform, whatever a policy decides.
-/
import WriteAhead.Proofs.Contents
import WriteAhead.Proofs.Steps

namespace WriteAhead

open Program

variable {W : Type}

/-! ## Platforms that resize a file -/

/-- The file behind `d` has a length that can be asked for, space that can be reserved, and a length
that can be set; `content` is its content where it is open for writing.  A reservation leaves the
file at least as long as it asks for, with zeros behind the old bytes, and a call that fails leaves
it as it is. -/
structure Resizable (h : Handler Steps W) (content : W → Option Content) (d : Descriptor) :
    Prop where
  length : ∀ w c, content w = some c →
    let answer := h (.systemLength d) w
    content answer.2 = some c ∧ (answer.1 = .ok c.length ∨ ∃ e, answer.1 = .error e)
  preallocate : ∀ n w c, content w = some c →
    let answer := h (.preallocate d n) w
    (answer.1 = .ok () ∧ ∃ k, n.toNat ≤ k ∧ content answer.2 = some (c.extendTo k)) ∨
      (∃ e, answer.1 = .error e) ∧ content answer.2 = some c
  setLength : ∀ n w c, content w = some c →
    let answer := h (.setSystemLength d n) w
    (answer.1 = .ok () ∧ content answer.2 = some (c.setLength n.toNat)) ∨
      (∃ e, answer.1 = .error e) ∧ content answer.2 = some c

/-! ## POSIX machines -/

/-- The content of the file that is open for writing under a descriptor, if one is. -/
def Machine.contentWritable? (m : Machine) (d : Descriptor) : Option Content :=
  match m.opened d.number with
  | some ⟨true, .file id⟩ => some (m.tree.content id)
  | _ => none

theorem Machine.contentWritable?_eq_some_iff {m : Machine} {d : Descriptor} {c : Content} :
    m.contentWritable? d = some c ↔
      ∃ id, m.opened d.number = some ⟨true, .file id⟩ ∧ m.tree.content id = c := by
  unfold contentWritable?
  constructor
  · intro h
    split at h
    · next id hopen => exact ⟨id, hopen, Option.some.inj h⟩
    · exact absurd h (by simp)
  · rintro ⟨id, hopen, rfl⟩
    rw [hopen]

/-- A file that is given another content has it. -/
theorem Machine.contentWritable?_setContent {m : Machine} {d : Descriptor} {id : FileId}
    (hopen : m.opened d.number = some ⟨true, .file id⟩) (c : Content) :
    (m.setContent id c).contentWritable? d = some c := by
  have hopen' : (m.setContent id c).opened d.number = some ⟨true, .file id⟩ := hopen
  rw [contentWritable?_eq_some_iff]
  exact ⟨id, hopen', by rw [tree_setContent, content_setContent_self]⟩

namespace Posix

/-- A file that is open for writing on a POSIX machine can be resized, whatever a policy decides. -/
theorem resizable {φ : Type} (patience : Nat) (decide : Policy φ) (d : Descriptor) :
    Resizable (served (serve patience) decide.handler) (fun w => w.1.contentWritable? d) d where
  length := by
    intro w c hc
    obtain ⟨id, hopen, rfl⟩ := Machine.contentWritable?_eq_some_iff.mp hc
    obtain ⟨reply, hreply, hanswer, -⟩ :=
      canEnd_once.mp (canEnd_run decide.within_true (once (.length d)) w)
    obtain ⟨hsame, rfl | ⟨-, code, rfl⟩⟩ := hreply.length hopen
    · exact ⟨(congrArg (Machine.contentWritable? · d) hsame).trans hc, .inl hanswer⟩
    · exact ⟨(congrArg (Machine.contentWritable? · d) hsame).trans hc, .inr ⟨_, hanswer⟩⟩
  preallocate := by
    intro n w c hc
    obtain ⟨id, hopen, rfl⟩ := Machine.contentWritable?_eq_some_iff.mp hc
    obtain ⟨reply, hreply, hanswer, -⟩ :=
      canEnd_once.mp (canEnd_run decide.within_true (once (.allocate d n)) w)
    rcases hreply.allocate hopen with ⟨rfl, k, hk, hextended⟩ | ⟨hsame, code, rfl, -⟩
    · refine .inl ⟨hanswer, k, hk, ?_⟩
      exact (congrArg (Machine.contentWritable? · d) hextended).trans
        (Machine.contentWritable?_setContent hopen _)
    · exact .inr ⟨⟨_, hanswer⟩, (congrArg (Machine.contentWritable? · d) hsame).trans hc⟩
  setLength := by
    intro n w c hc
    obtain ⟨id, hopen, rfl⟩ := Machine.contentWritable?_eq_some_iff.mp hc
    rcases ends_setLength hopen (canEnd_run decide.within_true (setLength patience d n) w) with
      ⟨hanswer, hset⟩ | ⟨hsame, -, hanswer⟩
    · refine .inl ⟨hanswer, ?_⟩
      exact (congrArg (Machine.contentWritable? · d) hset).trans
        (Machine.contentWritable?_setContent hopen _)
    · exact .inr ⟨hanswer, (congrArg (Machine.contentWritable? · d) hsame).trans hc⟩

/-! ### The resize step

The parts of a resize as steps, taken natively, are its parts as system calls. -/

theorem native_pin (patience : Nat) (d : Descriptor) (size : UInt64) :
    native patience ((Step.resizer Features.posix d).pin size) = (resizer patience d).pin size := by
  have hcall : native patience ((Step.resizer Features.posix d).setLength size) =
      (resizer patience d).setLength size := native_take _
  unfold Resizer.pin
  rw [native_bind, hcall]
  congr 1
  funext reply
  cases reply <;> rfl

theorem native_growTo (patience : Nat) (d : Descriptor) (size : UInt64) :
    native patience ((Step.resizer Features.posix d).growTo size) =
      (resizer patience d).growTo size := by
  have hcall : native patience ((Step.resizer Features.posix d).preallocate size) =
      (resizer patience d).preallocate size := native_take _
  unfold Resizer.growTo
  rw [native_bind, hcall]
  congr 1
  funext reply
  cases reply with
  | ok u => exact native_pin patience d size
  | error e =>
    have hsame : (resizer patience d).isUnsupported e =
        (Step.resizer Features.posix d).isUnsupported e := rfl
    simp only [hsame]
    by_cases he : (Step.resizer Features.posix d).isUnsupported e
    · rw [if_pos he, if_pos he, native_bind]
      congr 1
      funext u
      exact native_pin patience d size
    · rw [if_neg he, if_neg he]
      rfl

/-- A POSIX platform resizes a file by the steps of a resize. -/
theorem serve_resize (patience : Nat) (d : Descriptor) (size : UInt64) :
    serve patience (.resize d size) =
      native patience ((Step.resizer Features.posix d).resize size) := by
  have hcall : native patience (Step.resizer Features.posix d).length =
      (resizer patience d).length := native_take _
  show (resizer patience d).resize size = _
  unfold Resizer.resize
  rw [native_bind, hcall]
  congr 1
  funext reply
  cases reply with
  | error e => rfl
  | ok current =>
    by_cases hlt : current < size.toNat
    · simp only [if_pos hlt]
      exact (native_growTo patience d size).symm
    · simp only [if_neg hlt]
      exact (native_pin patience d size).symm

end Posix

namespace Resizer

/-! ## The courses of a resize -/

/-- How the space for a resize to `size` was reserved, of a file of content `c`: what the file
holds afterwards, and what happened meanwhile. -/
inductive Reserved (t : Features) (d : Descriptor) (size : UInt64) (c : Content) :
    Content → List (Happening Steps Event) → Prop where
  | needless (hle : size.toNat ≤ c.length) : Reserved t d size c c []
  | granted (hlt : c.length < size.toNat) (k : Nat) (hk : size.toNat ≤ k) :
    Reserved t d size c (c.extendTo k) [.answered (.preallocate d size) (.ok ())]
  | unsupported (hlt : c.length < size.toNat) (e : SystemError) (he : t.isUnsupported e = true) :
    Reserved t d size c c
      [.answered (.preallocate d size) (.error e), .noted (.preallocationUnsupported size e)]

/-- The course of a resize to `size` of a file of content `c`: its result, what the file holds
afterwards, and what happened meanwhile. -/
inductive Course (t : Features) (d : Descriptor) (size : UInt64) (c : Content) :
    Except JournalError Unit → Content → List (Happening Steps Event) → Prop where
  | unknown (e : SystemError) :
    Course t d size c (.error (.resize size e)) c [.answered (.systemLength d) (.error e)]
  | refused (hlt : c.length < size.toNat) (e : SystemError) (he : t.isUnsupported e = false) :
    Course t d size c (.error (.resize size e)) c
      [.answered (.systemLength d) (.ok c.length), .answered (.preallocate d size) (.error e)]
  | unset {c' : Content} {space : List (Happening Steps Event)}
    (hspace : Reserved t d size c c' space) (e : SystemError) :
    Course t d size c (.error (.resize size e)) c'
      (.answered (.systemLength d) (.ok c.length) ::
        (space ++ [.answered (.setSystemLength d size) (.error e)]))
  | finished {c' : Content} {space : List (Happening Steps Event)}
    (hspace : Reserved t d size c c' space) :
    Course t d size c (.ok ()) (c'.setLength size.toNat)
      (.answered (.systemLength d) (.ok c.length) ::
        (space ++ [.answered (.setSystemLength d size) (.ok ())]))

namespace Reserved

variable {t : Features} {d : Descriptor} {size : UInt64} {c c' : Content}
  {space : List (Happening Steps Event)}

/-- Whatever was reserved, the length that is set at the end decides. -/
theorem setLength (h : Reserved t d size c c' space) (n : Nat) :
    c'.setLength n = c.setLength n := by
  cases h with
  | granted hlt k => exact Content.setLength_extendTo c k n
  | needless | unsupported => rfl

/-- A reservation takes no byte away. -/
theorem prefix_toBytes (h : Reserved t d size c c' space) : c.toBytes <+: c'.toBytes := by
  cases h with
  | granted hlt k => exact Content.prefix_toBytes_extendTo c k
  | needless | unsupported => exact List.prefix_rfl

end Reserved

/-! ## The steps of a resize -/

theorem pin_eq (t : Features) (d : Descriptor) (size : UInt64) :
    (Step.resizer t d).pin size =
      ask (I := Steps) (Step.setSystemLength d size) fun
        | .ok () => done (.ok ())
        | .error e => done (.error (.resize size e)) := by
  show ask _ _ = ask _ _
  congr 1
  funext reply
  cases reply <;> rfl

theorem growTo_eq (t : Features) (d : Descriptor) (size : UInt64) :
    (Step.resizer t d).growTo size =
      ask (I := Steps) (Step.preallocate d size) fun
        | .ok () => (Step.resizer t d).pin size
        | .error e =>
          if t.isUnsupported e then
            Program.note (.preallocationUnsupported size e) ((Step.resizer t d).pin size)
          else done (.error (.resize size e)) := by
  show ask _ _ = ask _ _
  congr 1
  funext reply
  cases reply <;> rfl

theorem resize_eq (t : Features) (d : Descriptor) (size : UInt64) :
    (Step.resizer t d).resize size =
      ask (I := Steps) (Step.systemLength d) fun
        | .error e => done (.error (.resize size e))
        | .ok current =>
          if current < size.toNat then (Step.resizer t d).growTo size
          else (Step.resizer t d).pin size := by
  show ask _ _ = ask _ _
  congr 1
  funext reply
  cases reply <;> rfl

/-! ## Running a resize -/

variable {h : Handler Steps W} {content : W → Option Content} {d : Descriptor} {c : Content}
  {w : W}

/-- Once the space is reserved, setting the length decides about the course. -/
theorem course_pin (hr : Resizable h content d) {t : Features} {size : UInt64} {c' : Content}
    {space : List (Happening Steps Event)} (hspace : Reserved t d size c c' space)
    (hc : content w = some c') :
    let r := ((Step.resizer t d).pin size).run h w
    ∃ c'', content r.world = some c'' ∧
      Course t d size c r.value c''
        (.answered (.systemLength d) (.ok c.length) :: (space ++ r.history)) := by
  have hset := hr.setLength size w c' hc
  rw [pin_eq, run_ask]
  generalize h (.setSystemLength d size) w = answer at hset ⊢
  obtain ⟨reply, w₁⟩ := answer
  rcases hset with ⟨hreply, hset⟩ | ⟨⟨e, hreply⟩, hkept⟩
  · obtain rfl : reply = .ok () := hreply
    exact ⟨_, hset, .finished hspace⟩
  · obtain rfl : reply = .error e := hreply
    exact ⟨c', hkept, .unset hspace e⟩

/-- A file that has to grow gets its space, or the refusal is reported. -/
theorem course_growTo (hr : Resizable h content d) {t : Features} {size : UInt64}
    (hlt : c.length < size.toNat) (hc : content w = some c) :
    let r := ((Step.resizer t d).growTo size).run h w
    ∃ c', content r.world = some c' ∧
      Course t d size c r.value c'
        (.answered (.systemLength d) (.ok c.length) :: r.history) := by
  have hreserved := hr.preallocate size w c hc
  rw [growTo_eq, run_ask]
  generalize h (.preallocate d size) w = answer at hreserved ⊢
  obtain ⟨reply, w₁⟩ := answer
  rcases hreserved with ⟨hreply, k, hk, hextended⟩ | ⟨⟨e, hreply⟩, hkept⟩
  · obtain rfl : reply = .ok () := hreply
    exact course_pin hr (.granted hlt k hk) hextended
  · obtain rfl : reply = .error e := hreply
    cases he : t.isUnsupported e with
    | true =>
      simp only [he, if_true]
      exact course_pin hr (.unsupported hlt e he) hkept
    | false =>
      simp only [he, Bool.false_eq_true, if_false]
      exact ⟨c, hkept, .refused hlt e he⟩

/-- A resize takes one of its courses. -/
theorem resize_course (hr : Resizable h content d) (t : Features) (size : UInt64)
    (hc : content w = some c) :
    let r := ((Step.resizer t d).resize size).run h w
    ∃ c', content r.world = some c' ∧ Course t d size c r.value c' r.history := by
  obtain ⟨hkept, hanswer⟩ := hr.length w c hc
  rw [resize_eq, run_ask]
  generalize h (.systemLength d) w = answer at hkept hanswer ⊢
  obtain ⟨reply, w₁⟩ := answer
  rcases hanswer with hreply | ⟨e, hreply⟩
  · obtain rfl : reply = .ok c.length := hreply
    by_cases hlt : c.length < size.toNat
    · simp only [if_pos hlt]
      exact course_growTo hr hlt hkept
    · simp only [if_neg hlt]
      exact course_pin hr (.needless (Nat.le_of_not_lt hlt)) hkept
  · obtain rfl : reply = .error e := hreply
    exact ⟨c, hkept, .unknown e⟩

/-! ## What a resize asks for, reports and leaves -/

/-- The space that a file of content `c` lacks was reserved, or its file system cannot reserve
any. -/
def Provided (t : Features) (d : Descriptor) (size : UInt64) (c : Content)
    (history : List (Happening Steps Event)) : Prop :=
  c.length < size.toNat →
    .answered (.preallocate d size) (.ok ()) ∈ history ∨
      ∃ e, t.isUnsupported e = true ∧ .answered (.preallocate d size) (.error e) ∈ history

/-- The last that happened is that the length was not told, that the space was refused although the
file system can reserve some, or that the length was not set, with this error. -/
def EndedBy (t : Features) (d : Descriptor) (size : UInt64) (cause : SystemError)
    (history : List (Happening Steps Event)) : Prop :=
  history.getLast? = some (.answered (.systemLength d) (.error cause)) ∨
    (t.isUnsupported cause = false ∧
      history.getLast? = some (.answered (.preallocate d size) (.error cause))) ∨
    history.getLast? = some (.answered (.setSystemLength d size) (.error cause))

variable {t : Features} {size : UInt64} {c' : Content}
  {history space : List (Happening Steps Event)}

theorem Reserved.preallocate_mem_iff (h : Reserved t d size c c' space) (n : UInt64) :
    .preallocate d n ∈ requestsOf space ↔ n = size ∧ c.length < size.toNat := by
  cases h with
  | needless hle =>
    have hno : ¬ c.length < size.toNat := Nat.not_lt.mpr hle
    simp [hno]
  | granted hlt | unsupported hlt => simp [hlt]

theorem Reserved.provided (h : Reserved t d size c c' space) : Provided t d size c space := by
  intro hlt
  cases h with
  | needless hle => exact absurd hlt (Nat.not_lt.mpr hle)
  | granted => exact .inl (by simp)
  | unsupported _ e he => exact .inr ⟨e, he, by simp⟩

theorem Reserved.setSystemLength_notMem (h : Reserved t d size c c' space)
    (reply : Except SystemError Unit) :
    .answered (.setSystemLength d size) reply ∉ space := by
  cases h <;> simp

theorem Provided.mono (h : Provided t d size c space) (hsub : space ⊆ history) :
    Provided t d size c history := by
  intro hlt
  rcases h hlt with hgranted | ⟨e, he, hrefused⟩
  · exact .inl (hsub hgranted)
  · exact .inr ⟨e, he, hsub hrefused⟩

/-- A content that a reservation changed had its space granted. -/
theorem Reserved.eq_or_granted (h : Reserved t d size c c' space) :
    c' = c ∨ .answered (.preallocate d size) (.ok ()) ∈ space := by
  cases h with
  | granted => exact .inr (by simp)
  | needless | unsupported => exact .inl rfl

namespace Course

variable {value : Except JournalError Unit}

/-- Space is reserved exactly where the file is known to be too short. -/
theorem preallocate_mem_iff (h : Course t d size c value c' history) (n : UInt64) :
    .preallocate d n ∈ requestsOf history ↔
      n = size ∧ .answered (.systemLength d) (.ok c.length) ∈ history ∧
        c.length < size.toNat := by
  cases h with
  | unknown e => simp
  | refused hlt e he => simp [hlt]
  | unset hspace | finished hspace => simp [hspace.preallocate_mem_iff]

/-- A resize succeeds exactly if the length is known, the space is provided, and the length is
set. -/
theorem eq_ok_iff (h : Course t d size c value c' history) :
    value = .ok () ↔
      .answered (.systemLength d) (.ok c.length) ∈ history ∧ Provided t d size c history ∧
        .answered (.setSystemLength d size) (.ok ()) ∈ history := by
  cases h with
  | unknown e => simp
  | refused hlt e he => simp
  | unset hspace e =>
    have hnone := hspace.setSystemLength_notMem (.ok ())
    simp [hnone]
  | finished hspace =>
    refine ⟨fun _ => ⟨by simp, hspace.provided.mono ?_, by simp⟩, fun _ => rfl⟩
    intro x hx
    exact List.mem_cons_of_mem _ (List.mem_append_left _ hx)

/-- A resize that succeeds gives the file exactly the length. -/
theorem eq_setLength (h : Course t d size c (.ok ()) c' history) :
    c' = c.setLength size.toNat := by
  cases h with
  | finished hspace => exact hspace.setLength size.toNat

/-- A resize that fails reports the error of the call that ended it. -/
theorem endedBy {e : JournalError} (h : Course t d size c (.error e) c' history) :
    ∃ cause, e = .resize size cause ∧ EndedBy t d size cause history := by
  cases h with
  | unknown cause => exact ⟨cause, rfl, .inl rfl⟩
  | refused hlt cause he => exact ⟨cause, rfl, .inr (.inl ⟨he, rfl⟩)⟩
  | unset hspace cause =>
    refine ⟨cause, rfl, .inr (.inr ?_)⟩
    rw [← List.cons_append, List.getLast?_append]
    rfl

/-- A resize that fails takes no byte away, and leaves the file as it was unless its space was
reserved and only its length was not set. -/
theorem kept_of_error {e : JournalError} (h : Course t d size c (.error e) c' history) :
    c.toBytes <+: c'.toBytes ∧
      (c' = c ∨ .answered (.preallocate d size) (.ok ()) ∈ history ∧
        ∃ cause, .answered (.setSystemLength d size) (.error cause) ∈ history) := by
  cases h with
  | unknown cause => exact ⟨List.prefix_rfl, .inl rfl⟩
  | refused hlt cause he => exact ⟨List.prefix_rfl, .inl rfl⟩
  | unset hspace cause =>
    refine ⟨hspace.prefix_toBytes, ?_⟩
    rcases hspace.eq_or_granted with hsame | hgranted
    · exact .inl hsame
    · exact .inr ⟨by simp [hgranted], cause, by simp⟩

end Course

/-- **A resize is exact if it succeeds, and takes no byte away if it fails.**  It reserves space
exactly if the file is known to be too short, and exactly so much as it is to be long.  It succeeds
if and only if the length is known, the space is provided and the length is set; the file then has
exactly the length, with its old bytes in front and zeros behind.  Otherwise the error is that of
the call that ended it, the old bytes are still in front, and the file is as it was unless its space
was reserved and only its length was not set. -/
theorem resize_exact_or_harmless (hr : Resizable h content d) (t : Features) (size : UInt64)
    (hc : content w = some c) :
    let r := ((Step.resizer t d).resize size).run h w
    (∀ n, .preallocate d n ∈ r.requests ↔
      n = size ∧ .answered (.systemLength d) (.ok c.length) ∈ r.history ∧
        c.length < size.toNat) ∧
    (r.value = .ok () ↔
      .answered (.systemLength d) (.ok c.length) ∈ r.history ∧ Provided t d size c r.history ∧
        .answered (.setSystemLength d size) (.ok ()) ∈ r.history) ∧
    ∃ c', content r.world = some c' ∧
      (r.value = .ok () → c'.length = size.toNat ∧
        c'.toBytes = c.toBytes.take size.toNat ++ List.replicate (size.toNat - c.length) 0) ∧
      ∀ e, r.value = .error e →
        (∃ cause, e = .resize size cause ∧ EndedBy t d size cause r.history) ∧
        c.toBytes <+: c'.toBytes ∧
        (c'.length = c.length ∨ .answered (.preallocate d size) (.ok ()) ∈ r.history ∧
          ∃ cause, .answered (.setSystemLength d size) (.error cause) ∈ r.history) := by
  intro r
  obtain ⟨c', hcontent, hcourse⟩ := resize_course hr t size hc
  refine ⟨hcourse.preallocate_mem_iff, hcourse.eq_ok_iff, c', hcontent, fun hok => ?_,
    fun e he => ?_⟩
  · have hfinished : Course t d size c (.ok ()) c' r.history := hok ▸ hcourse
    rw [hfinished.eq_setLength]
    exact ⟨rfl, Content.toBytes_setLength c size.toNat⟩
  · have hfailed : Course t d size c (.error e) c' r.history := he ▸ hcourse
    obtain ⟨hfront, hkept⟩ := hfailed.kept_of_error
    refine ⟨hfailed.endedBy, hfront, ?_⟩
    rcases hkept with rfl | hgranted
    · exact .inl rfl
    · exact .inr hgranted

/-- Three bytes are made five by a machine whose reservations go up to ten. -/
theorem resize_exact_or_harmless_over_extended :
    let decide : Policy Unit := fun _ s => (.extendTo 10, s)
    let d : Descriptor := ⟨0, ⟨[106]⟩⟩
    let c := Content.ofBytes [1, 2, 3]
    let m := (((Machine.ofTree FileTree.empty []).setContent 0 c).openTarget d.path
      ⟨true, .file 0⟩).2
    let r := ((Step.resizer Features.posix d).resize 5).run
      (served (Posix.serve 0) decide.handler) (m, ())
    r.value = .ok () ∧ .preallocate d 5 ∈ r.requests ∧
      ∃ c', r.world.1.contentWritable? d = some c' ∧ c'.toBytes = [1, 2, 3, 0, 0] := by
  intro decide d c m r
  have hc : m.contentWritable? d = some c := by
    rw [Machine.contentWritable?_eq_some_iff]
    exact ⟨0, rfl, rfl⟩
  obtain ⟨hreserves, hok, c', hcontent, hexact, -⟩ :=
    resize_exact_or_harmless (Posix.resizable 0 decide d) Features.posix 5 (w := (m, ())) hc
  have hvalue : r.value = .ok () := by with_unfolding_all rfl
  have hlength : (Happening.answered (.systemLength d) (.ok c.length) : Happening Steps Event) ∈
      r.history := (hok.mp hvalue).1
  exact ⟨hvalue, (hreserves 5).mpr ⟨rfl, hlength, by decide⟩, c', hcontent, (hexact hvalue).2⟩

end Resizer

end WriteAhead
