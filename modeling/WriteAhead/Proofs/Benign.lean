/-
# Journals on a benign system

A benign system may split every transfer and round or refuse every preallocation, but fails
nothing else.  The journals make up for what it does: each operation on them succeeds, and does to
the file what one would expect of it.

* `ends_write`, `ends_read` : however they are split, transfers amount to one block;
* `ends_openForWrite_benign`, `ends_truncate` : however it is preallocated, the file gets the
  length that was asked for.
-/
import WriteAhead.Journal.Transfer
import WriteAhead.Proofs.Growth

namespace WriteAhead

open Program

/-! ## A system that fails nothing it does not have to -/

/-- What a benign system decides: a preallocation may be refused as unsupported, a transfer moves
something, and nothing fails. -/
def Benign : SystemCall → Verdict → Prop
  | .allocate _ _, .fail code => SystemError.isUnsupported (.code code) = true
  | _, .fail _ => False
  | .writeAt _ _ _, .atMost n | .readAt _ _ _, .atMost n => 0 < n
  | _, _ => True

theorem not_canFail_benign {c : SystemCall} (hc : ∀ d n, c ≠ .allocate d n) :
    ¬ CanFail Benign c := by
  rintro ⟨code, hcode⟩
  cases c with
  | allocate d n => exact hc d n rfl
  | _ => exact hcode

namespace Posix

theorem not_resizeCanFail_benign {d : Descriptor} {size : UInt64}
    (hsize : size.toNat < Machine.offsetLimit) : ¬ ResizeCanFail Benign d size := by
  rintro (hlarge | hlength | hset | ⟨code, hcode, hsupported⟩)
  · exact absurd hsize (Nat.not_lt.mpr hlarge)
  · exact not_canFail_benign (by simp) hlength
  · exact not_canFail_benign (by simp) hset
  · exact absurd (hcode.symm.trans hsupported) (by simp)

theorem not_syncingCanFail_benign {p : Path} (hp : p.hasZeroByte = false) :
    ¬ SyncingCanFail Benign p := by
  rintro (hzero | hopen | ⟨d, hstat | hsync⟩)
  · exact absurd (hp.symm.trans hzero) (by simp)
  · exact not_canFail_benign (by simp) hopen
  · exact not_canFail_benign (by simp) hstat
  · exact not_canFail_benign (by simp) hsync

variable {patience : Nat} {m m' : Machine} {history : List (Happening System Event)}
  {d : Descriptor} {id : FileId} {offset : UInt64}

/-! ## Steps that cannot fail -/

theorem flush_benign {f : OpenFile} (hopen : m.opened d.number = some f)
    {r : Except JournalError Unit}
    (h : CanEnd Benign (serve patience (.flush d)) m r m' history) : r = .ok () ∧ m' = m := by
  obtain ⟨hm, hr | ⟨hfail, -⟩⟩ := ends_flush hopen h
  · exact ⟨hr, hm⟩
  · exact absurd hfail (not_canFail_benign (by simp))

theorem fileSize_benign {w : Bool} (hopen : m.opened d.number = some ⟨w, .file id⟩)
    {r : Except JournalError Nat}
    (h : CanEnd Benign (serve patience (.fileSize d)) m r m' history) :
    r = .ok (m.tree.content id).length ∧ m' = m := by
  obtain ⟨hm, -, hr | ⟨hfail, -⟩⟩ := ends_fileSize hopen h
  · exact ⟨hr, hm⟩
  · exact absurd hfail (not_canFail_benign (by simp))

theorem resize_benign (hopen : m.opened d.number = some ⟨true, .file id⟩) {size : UInt64}
    (hsize : size.toNat < Machine.offsetLimit) {r : Except JournalError Unit}
    (h : CanEnd Benign (serve patience (.resize d size)) m r m' history) :
    r = .ok () ∧ m' = m.setContent id ((m.tree.content id).setLength size.toNat) := by
  rcases ends_resize hopen h with hr | ⟨-, hfail, -⟩
  · exact hr
  · exact absurd hfail (not_resizeCanFail_benign hsize)

theorem syncDirectoryFor_benign {p : Path} {target : FileTree.Target}
    (hzero : p.directory.hasZeroByte = false)
    (htarget : m.tree.openExisting m.workingDirectory p.directory = .ok target)
    {r : Except JournalError Unit}
    (h : CanEnd Benign (serve patience (.syncDirectoryFor p)) m r m' history) :
    r = .ok () ∧ m.Keeps m' := by
  obtain ⟨hm, hr | ⟨hfail, -⟩⟩ := ends_syncDirectoryFor htarget h
  · exact ⟨hr, hm⟩
  · exact absurd hfail (not_syncingCanFail_benign hzero)

theorem close_benign {f : OpenFile} (hopen : m.opened d.number = some f)
    {r : Except SystemError Unit}
    (h : CanEnd Benign (once (.close d)) m r m' history) :
    r = .ok () ∧ m' = m.forget d.number := by
  obtain ⟨hm, hr⟩ := ends_close h
  refine ⟨?_, ?_⟩
  · rcases hr with hr | ⟨hfail | hnone, -⟩
    · exact hr
    · exact absurd hfail (not_canFail_benign (by simp))
    · exact absurd (hopen.symm.trans hnone) (by simp)
  · rcases hm with hm | ⟨-, hnone⟩
    · exact hm
    · exact absurd (hopen.symm.trans hnone) (by simp)

/-! ## Sums of offsets -/

theorem native_ask {α : Type} (s : Step) (next : s.Reply → StepProgram α) :
    native patience (.ask s next) = serve patience s >>= fun r => native patience (next r) := rfl

theorem toNat_ofNat {k : Nat} (h : k < Machine.offsetLimit) : (UInt64.ofNat k).toNat = k := by
  unfold Machine.offsetLimit at h
  rw [UInt64.toNat_ofNat']
  omega

theorem addWords?_of_lt {a b : Nat} (h : a + b < Machine.offsetLimit) :
    addWords? a b = .ok (a + b) := by
  unfold addWords? wordLimit
  unfold Machine.offsetLimit at h
  rw [if_pos (by omega)]

/-! ## Writing -/

/-- The rest of a write ends with all of it laid over the content. -/
theorem ends_writeRest (hopen : m.opened d.number = some ⟨true, .file id⟩) (total written : Nat)
    {rest : Bytes} (hrange : offset.toNat + written + rest.length < Machine.offsetLimit)
    {r : Outcome Unit}
    (h : CanEnd Benign (native patience (Handle.writeRest d offset total written rest)) m r m'
      history) :
    r = .ok () ∧
      m' = m.setContent id ((m.tree.content id).overlay (offset.toNat + written) rest) := by
  fun_induction Handle.writeRest d offset total written rest generalizing m history with
  | case1 written =>
    obtain ⟨rfl, rfl, rfl⟩ := h
    exact ⟨rfl, by simp⟩
  | case2 written rest hrest panic hpanic =>
    rw [addWords?_of_lt (by omega)] at hpanic
    exact absurd hpanic (by simp)
  | case3 written rest hrest position hposition ih =>
    rw [addWords?_of_lt (by omega)] at hposition
    obtain rfl := Except.ok.inj hposition
    rw [native_ask] at h
    obtain ⟨a, m₁, xs, ys, ha, hr, rfl⟩ := ends_bind.mp h
    have hoffset : (UInt64.ofNat (offset.toNat + written)).toNat = offset.toNat + written :=
      toNat_ofNat (by omega)
    rcases ends_writeAt hopen (by rw [hoffset]; exact hrange) ha with
      ⟨n, hn, rfl, rfl, hzero⟩ | ⟨-, hfail, -⟩
    · -- something was moved, so that what is left is shorter
      have hpos : n ≠ 0 := by
        intro hn0
        rcases hzero hn0 with hnil | hnone
        · exact hrest hnil
        · exact absurd hnone (Nat.lt_irrefl 0)
      simp only [hpos, if_false, hoffset,
        addWords?_of_lt (show written + n < Machine.offsetLimit by omega)] at hr
      have hopen' : (m.setContent id ((m.tree.content id).overlay (offset.toNat + written)
          (rest.take n))).opened d.number = some ⟨true, .file id⟩ := hopen
      have hdrop : offset.toNat + (written + n) + (rest.drop n).length < Machine.offsetLimit := by
        rw [List.length_drop]
        omega
      obtain ⟨rfl, rfl⟩ := ih n hpos (written + n) hopen' hdrop hr
      refine ⟨rfl, ?_⟩
      have hlength : (rest.take n).length = n := by
        rw [List.length_take, Nat.min_eq_left hn]
      have happend := Content.overlay_append (m.tree.content id) (offset.toNat + written)
        (rest.take n) (rest.drop n)
      rw [hlength, List.take_append_drop] at happend
      rw [Machine.setContent_setContent, Machine.tree_setContent,
        Machine.content_setContent_self, ← Nat.add_assoc, happend]
    · exact absurd hfail (not_canFail_benign (by simp))

end Posix

/-! ## Filling a buffer -/

namespace Handle

theorem place_nil (buffer : Bytes) (i : Nat) : place buffer i [] = buffer := by
  simp [place]

theorem place_eq {buffer xs : Bytes} {i : Nat} (h : i + xs.length ≤ buffer.length) :
    place buffer i xs = buffer.take i ++ xs ++ buffer.drop (i + xs.length) := by
  unfold place
  rw [List.take_of_length_le (show xs.length ≤ buffer.length - i by omega)]

theorem length_place {buffer xs : Bytes} {i : Nat} (h : i + xs.length ≤ buffer.length) :
    (place buffer i xs).length = buffer.length := by
  rw [place_eq h]
  simp only [List.length_append, List.length_take, List.length_drop]
  omega

/-- Bytes put into a buffer one after the other are put there together. -/
theorem place_place {buffer xs ys : Bytes} {i : Nat}
    (h : i + xs.length + ys.length ≤ buffer.length) :
    place (place buffer i xs) (i + xs.length) ys = place buffer i (xs ++ ys) := by
  have hxs : i + xs.length ≤ buffer.length := by omega
  have hfront : (buffer.take i ++ xs).length = i + xs.length := by
    rw [List.length_append, List.length_take, Nat.min_eq_left (by omega)]
  have htake : (place buffer i xs).take (i + xs.length) = buffer.take i ++ xs := by
    rw [place_eq hxs, ← hfront, List.take_left]
  have hdrop : (place buffer i xs).drop (i + xs.length + ys.length) =
      buffer.drop (i + xs.length + ys.length) := by
    rw [place_eq hxs, ← hfront, ← List.drop_drop, List.drop_left, List.drop_drop, hfront]
  rw [place_eq (by rw [length_place hxs]; exact h), htake, hdrop,
    place_eq (by rw [List.length_append]; omega), List.length_append, List.append_assoc,
    List.append_assoc, List.append_assoc, Nat.add_assoc]
  simp only [List.append_assoc]

end Handle

namespace Posix

variable {patience : Nat} {m m' : Machine} {history : List (Happening System Event)}
  {d : Descriptor} {id : FileId} {offset : UInt64}

/-- The rest of a read ends with all there is of the range put into the buffer. -/
theorem ends_readRest (hopen : m.opened d.number = some ⟨false, .file id⟩) (filled : Nat)
    {buffer : Bytes} {left : Nat} (hbuffer : filled + left = buffer.length)
    (hrange : offset.toNat + filled + left < Machine.offsetLimit) {r : Handle.ReadResult}
    (h : CanEnd Benign (native patience (Handle.readRest d offset filled buffer left)) m r m'
      history) :
    m' = m ∧
      r = ⟨.ok (filled + ((m.tree.content id).slice (offset.toNat + filled) left).length),
        Handle.place buffer filled ((m.tree.content id).slice (offset.toNat + filled) left)⟩ := by
  fun_induction Handle.readRest d offset filled buffer left generalizing m history with
  | case1 filled buffer =>
    obtain ⟨rfl, rfl, rfl⟩ := h
    have hnil : (m'.tree.content id).slice (offset.toNat + filled) 0 = [] := by
      simp [Content.slice]
    rw [hnil, Handle.place_nil]
    exact ⟨rfl, rfl⟩
  | case2 filled buffer left panic hpanic =>
    rw [addWords?_of_lt (by omega)] at hpanic
    exact absurd hpanic (by simp)
  | case3 filled buffer left position hposition ih =>
    rw [addWords?_of_lt (by omega)] at hposition
    obtain rfl := Except.ok.inj hposition
    rw [native_ask] at h
    obtain ⟨a, m₁, xs, ys, ha, hr, rfl⟩ := ends_bind.mp h
    have hoffset : (UInt64.ofNat (offset.toNat + filled)).toNat = offset.toNat + filled :=
      toNat_ofNat (by omega)
    obtain ⟨rfl, ⟨n, hn, rfl, hzero⟩ | ⟨hfail, -⟩⟩ :=
      ends_readAt hopen (by rw [hoffset]; exact hrange) ha
    · have hpos : n ≠ 0 := by
        intro hn0
        rcases hzero hn0 with hnil | hnone
        · exact absurd hnil (Nat.succ_ne_zero left)
        · exact absurd hnone (Nat.lt_irrefl 0)
      rw [hoffset] at hr
      have hsplit := Content.slice_split (m₁.tree.content id) (offset.toNat + filled) hn
      have hshort : ((m₁.tree.content id).slice (offset.toNat + filled) n).length ≤ left + 1 := by
        rw [Content.length_slice]
        omega
      generalize hgot : (m₁.tree.content id).slice (offset.toNat + filled) n = got at *
      by_cases hend : got.length = 0
      · -- a read that moves nothing is at the end of the file
        have hnil : got = [] := List.length_eq_zero_iff.mp hend
        have hnone := Content.slice_eq_nil hpos (hgot.trans hnil) (left + 1)
        simp only [hend, if_true] at hr
        obtain ⟨rfl, rfl, rfl⟩ := hr
        rw [hnone, hnil]
        exact ⟨rfl, rfl⟩
      · -- what was read goes behind what is in the buffer, and the rest is read behind that
        simp only [hend, if_false,
          addWords?_of_lt (show filled + got.length < Machine.offsetLimit by omega)] at hr
        have hplace := Handle.length_place (show filled + got.length ≤ buffer.length by omega)
        have hfits : filled + got.length + (left + 1 - got.length) =
            (Handle.place buffer filled got).length := by
          omega
        have hrange' : offset.toNat + (filled + got.length) + (left + 1 - got.length) <
            Machine.offsetLimit := by
          omega
        obtain ⟨rfl, rfl⟩ := ih ⟨got.length, got⟩ hend (filled + got.length) hopen hfits hrange' hr
        rw [hsplit, ← Nat.add_assoc, List.length_append, ← Nat.add_assoc, Handle.place_place]
        · exact ⟨rfl, rfl⟩
        · simp only [Content.length_slice]
          omega
    · exact absurd hfail (not_canFail_benign (by simp))

/-! ## Opening a journal -/

variable {p : Path} {size : UInt64}

/-- A file that exists is opened for writing, and gets the greater of its length and the size. -/
theorem ends_openForWrite_benign {mode : JournalMode} {support : DurabilitySupport}
    (hzero : p.hasZeroByte = false)
    (hfile : m.tree.openExisting m.workingDirectory p = .ok (.file id)) (hpos : size ≠ 0)
    (hsize : size.toNat < Machine.offsetLimit) {r : Outcome (Handle × Nat)}
    (h : CanEnd Benign (native patience (Journal.openForWrite Features.posix p mode size support))
      m r m' history) :
    let n := max (m.tree.content id).length size.toNat
    r = .ok (Journal.writer p mode support ⟨m.nextNumber, p⟩, n) ∧
      m' = (m.openTarget p ⟨true, .file id⟩).2.setContent id
        ((m.tree.content id).setLength n) := by
  have hmake := FileTree.openOrMake_of_openExisting hfile
  rcases ends_openForWrite_journal hpos h with
    ⟨id', t, hmake', hr, hm, -⟩ | ⟨-, hzero' | ⟨code, hcode⟩ | ⟨mode, hfail⟩ | ⟨d, hfail⟩, -⟩
  · obtain ⟨rfl, rfl⟩ := Prod.mk.inj (Except.ok.inj (hmake.symm.trans hmake'))
    exact ⟨hr, hm⟩
  · exact absurd (hzero.symm.trans hzero') (by simp)
  · exact absurd (hmake.symm.trans hcode) (by simp)
  · exact absurd hfail (not_canFail_benign (by simp))
  · exact absurd hfail (not_resizeCanFail_benign hsize)

/-- A file that exists is opened for reading. -/
theorem ends_openForRead_benign (hzero : p.hasZeroByte = false)
    (hfile : m.tree.openExisting m.workingDirectory p = .ok (.file id))
    {r : Except JournalError Handle}
    (h : CanEnd Benign (native patience (Journal.openForRead p)) m r m' history) :
    r = .ok ⟨some ⟨m.nextNumber, p⟩, none, false⟩ ∧
      m' = (m.openTarget p ⟨false, .file id⟩).2 := by
  unfold Journal.openForRead at h
  rw [native_bind, native_take] at h
  obtain ⟨a, m₁, xs, ys, ha, hr, rfl⟩ := ends_bind.mp h
  rcases ends_openRead ha with
    ⟨target, htarget, rfl, rfl⟩ | ⟨-, -, hzero' | ⟨code, hcode⟩ | hfail⟩
  · obtain rfl := Except.ok.inj (hfile.symm.trans htarget)
    obtain ⟨rest, ⟨rfl, rfl, rfl⟩, rfl⟩ := hr
    exact ⟨rfl, rfl⟩
  · exact absurd (hzero.symm.trans hzero') (by simp)
  · exact absurd (hfile.symm.trans hcode) (by simp)
  · exact absurd hfail (not_canFail_benign (by simp))

/-! ## Operations on a handle -/

variable {j : Handle} {bytes buffer : Bytes}

/-- A write is one block laid over the content. -/
theorem ends_write (hd : j.descriptor = some d)
    (hopen : m.opened d.number = some ⟨true, .file id⟩)
    (hrange : offset.toNat + bytes.length < Machine.offsetLimit) {r : Outcome Unit}
    (h : CanEnd Benign (native patience (j.write bytes offset)) m r m' history) :
    r = .ok () ∧ m' = m.setContent id ((m.tree.content id).overlay offset.toNat bytes) := by
  unfold Handle.write Handle.withFile at h
  rw [hd] at h
  exact ends_writeRest hopen bytes.length 0 hrange h

/-- A read puts all there is of the range at the front of the buffer. -/
theorem ends_read (hd : j.descriptor = some d)
    (hopen : m.opened d.number = some ⟨false, .file id⟩)
    (hrange : offset.toNat + buffer.length < Machine.offsetLimit) {r : Handle.ReadResult}
    (h : CanEnd Benign (native patience (j.read buffer offset)) m r m' history) :
    let got := (m.tree.content id).slice offset.toNat buffer.length
    m' = m ∧ r = ⟨.ok got.length, got ++ buffer.drop got.length⟩ := by
  unfold Handle.read at h
  rw [hd] at h
  obtain ⟨rfl, rfl⟩ := ends_readRest hopen 0 (Nat.zero_add _) hrange h
  refine ⟨rfl, ?_⟩
  rw [Handle.place_eq (by rw [Content.length_slice]; omega), List.take_zero, List.nil_append,
    Nat.zero_add, Nat.add_zero]

/-- The size is the length of the content. -/
theorem ends_size {w : Bool} (hd : j.descriptor = some d)
    (hopen : m.opened d.number = some ⟨w, .file id⟩) {r : Outcome Nat}
    (h : CanEnd Benign (native patience j.size) m r m' history) :
    m' = m ∧ r = .ok (m.tree.content id).length := by
  unfold Handle.size Handle.withFile at h
  rw [hd] at h
  rw [native_bind, native_take] at h
  obtain ⟨a, m₁, xs, ys, ha, ⟨rfl, rfl, rfl⟩, rfl⟩ := ends_bind.mp h
  obtain ⟨rfl, rfl⟩ := fileSize_benign hopen ha
  exact ⟨rfl, rfl⟩

/-- The steps of a truncation all succeed: they set the length, and leave all that is open. -/
theorem ends_truncateFile {target : FileTree.Target}
    (hopen : m.opened d.number = some ⟨true, .file id⟩)
    (hzero : p.directory.hasZeroByte = false)
    (htarget : m.tree.openExisting m.workingDirectory p.directory = .ok target)
    (hsize : size.toNat < Machine.offsetLimit) {r : Except JournalError Unit}
    (h : CanEnd Benign (native patience (Handle.truncateFile (some p) d size)) m r m' history) :
    r = .ok () ∧ (m.setContent id ((m.tree.content id).setLength size.toNat)).Keeps m' := by
  unfold Handle.truncateFile at h
  rw [native_bind, native_take] at h
  obtain ⟨first, m₁, xs, rest, hfirst, hrest, rfl⟩ := ends_bind.mp h
  obtain ⟨rfl, rfl⟩ := flush_benign hopen hfirst
  simp only at hrest
  rw [native_bind, native_take] at hrest
  obtain ⟨resized, m₂, ys, rest, hresized, hlast, rfl⟩ := ends_bind.mp hrest
  obtain ⟨rfl, rfl⟩ := resize_benign hopen hsize hresized
  simp only at hlast
  rw [native_bind, native_take] at hlast
  obtain ⟨second, m₃, zs, rest, hsecond, hsync, rfl⟩ := ends_bind.mp hlast
  have hopen' : (m₁.setContent id ((m₁.tree.content id).setLength size.toNat)).opened d.number =
      some ⟨true, .file id⟩ := hopen
  obtain ⟨rfl, rfl⟩ := flush_benign hopen' hsecond
  simp only at hsync
  rw [native_take] at hsync
  have htarget' : (m₁.setContent id ((m₁.tree.content id).setLength size.toNat)).tree.openExisting
      m₁.workingDirectory p.directory = .ok target := by
    rw [Machine.tree_setContent, FileTree.openExisting_setContent]
    exact htarget
  exact syncDirectoryFor_benign hzero htarget' hsync

/-- A truncation gives the file exactly the length, and leaves all that is open. -/
theorem ends_truncate {target : FileTree.Target} (hd : j.descriptor = some d)
    (hpath : j.path = some p) (hopen : m.opened d.number = some ⟨true, .file id⟩)
    (hzero : p.directory.hasZeroByte = false)
    (htarget : m.tree.openExisting m.workingDirectory p.directory = .ok target)
    (hsize : size.toNat < Machine.offsetLimit) {r : Outcome Unit}
    (h : CanEnd Benign (native patience (j.truncate size)) m r m' history) :
    r = .ok () ∧ (m.setContent id ((m.tree.content id).setLength size.toNat)).Keeps m' := by
  unfold Handle.truncate Handle.withFile at h
  rw [hd] at h
  simp only [native_bind] at h
  obtain ⟨a, m₁, xs, ys, ha, hr, rfl⟩ := ends_bind.mp h
  rw [hpath] at ha
  obtain ⟨rfl, hkeeps⟩ := ends_truncateFile hopen hzero htarget hsize ha
  obtain ⟨rest, ⟨rfl, rfl, rfl⟩, rfl⟩ := hr
  exact ⟨rfl, hkeeps⟩

/-- Letting go of a handle whose file stays closes its descriptor. -/
theorem ends_release {t : Features} (hd : j.descriptor = some d) (hstays : j.deleteOnClose = false)
    {f : OpenFile} (hopen : m.opened d.number = some f) {r : Except JournalError Unit × Handle}
    (h : CanEnd Benign (native patience (j.release t)) m r m' history) :
    r.1 = .ok () ∧ m' = m.forget d.number := by
  have hpath : j.unlinkPath? t = none := by
    unfold Handle.unlinkPath?
    rw [hstays]
    rfl
  rw [Handle.release_of_descriptor_eq_some t j hd, hpath, native_bind] at h
  obtain ⟨a, m₁, xs, ys, ⟨rfl, rfl, rfl⟩, h, rfl⟩ := ends_bind.mp h
  rw [native_bind] at h
  obtain ⟨b, m₂, zs, us, hclose, ⟨rfl, rfl, rfl⟩, rfl⟩ := ends_bind.mp h
  unfold Handle.closeAfter at hclose
  rw [native_bind, native_take] at hclose
  obtain ⟨c, m₃, vs, ws, hc, hr, rfl⟩ := ends_bind.mp hclose
  obtain ⟨rfl, rfl⟩ := close_benign hopen hc
  obtain ⟨rfl, rfl, rfl⟩ := hr
  exact ⟨rfl, rfl⟩

end Posix

end WriteAhead
