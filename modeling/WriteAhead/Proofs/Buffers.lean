/-
# The window of an aligned buffer

However its store lies in memory, a buffer shows a window of whole blocks that fits in the store,
and behaves like a plain row of bytes.

Main statements:

* `isLeast_ceiling` : a ceiling is the least multiple that is large enough;
* `tryZeroed_extent` : which requests are answered, and which are too large even to be refused;
* `window_kept` : whatever is written to a buffer, its window stays where it is, and its bytes are
  those of a plain row.
-/
import WriteAhead.Buffer.Aligned
import WriteAhead.JournalError
import Mathlib.Order.Bounds.Basic

namespace WriteAhead

/-! ## Ceilings -/

section Ceiling

variable {value alignment : Nat}

theorem dvd_ceiling (value alignment : Nat) : alignment ∣ ceiling value alignment :=
  Nat.dvd_mul_left _ _

theorem ceiling_lt (h : 0 < alignment) : ceiling value alignment < value + alignment := by
  have hle := Nat.div_mul_le_self (value + alignment - 1) alignment
  unfold ceiling
  omega

theorem le_ceiling (h : 0 < alignment) : value ≤ ceiling value alignment := by
  have hlt : value + alignment - 1 < (value + alignment - 1) / alignment * alignment + alignment :=
    Nat.lt_div_mul_add h
  unfold ceiling
  omega

/-- The ceiling is the least multiple of the alignment that is at least the value. -/
theorem isLeast_ceiling (h : 0 < alignment) :
    IsLeast {n | value ≤ n ∧ alignment ∣ n} (ceiling value alignment) := by
  refine ⟨⟨le_ceiling h, dvd_ceiling value alignment⟩, fun n hn => ?_⟩
  obtain ⟨hle, k, rfl⟩ := hn
  -- a multiple below the ceiling would be a whole step below it
  have hstep : (value + alignment - 1) / alignment < k + 1 := by
    rw [Nat.div_lt_iff_lt_mul h, Nat.add_mul, Nat.one_mul, Nat.mul_comm k]
    omega
  unfold ceiling
  rw [Nat.mul_comm alignment]
  exact Nat.mul_le_mul_right alignment (Nat.le_of_lt_succ hstep)

end Ceiling

namespace AlignedBuffer

/-! ## Requests -/

theorem blockSize_pos : 0 < blockSize := by decide

theorem isPowerOfTwo_blockSize : isPowerOfTwo blockSize = true := by decide

/-- The words end at a block boundary, so that it makes no difference whether a request or its
ceiling is measured against the last two blocks. -/
theorem ceiling_add_lt_iff (length : Nat) :
    ceiling length blockSize + blockSize < wordLimit ↔ length ≤ wordLimit - 2 * blockSize := by
  have hlow : length ≤ ceiling length blockSize := le_ceiling blockSize_pos
  have hhigh : ceiling length blockSize < length + blockSize := ceiling_lt blockSize_pos
  have hwhole : blockSize ∣ ceiling length blockSize := dvd_ceiling _ _
  generalize ceiling length blockSize = window at *
  unfold wordLimit
  unfold blockSize at *
  omega

theorem roundUp_of_le_wordLimit {length : Nat} (h : wordLimit ≤ length + blockSize) :
    roundUp length blockSize = .error .addOverflow := by
  have hsum : addWords? length blockSize = .error .addOverflow := if_neg (Nat.not_lt_of_le h)
  rw [roundUp, if_pos isPowerOfTwo_blockSize, hsum]

/-- A request is measured unless its window and one block more are no word. -/
theorem sizes_eq (length : Nat) : sizes length =
    if length ≤ wordLimit - 2 * blockSize then
      .ok (ceiling length blockSize, ceiling length blockSize + blockSize)
    else .error .addOverflow := by
  have htotal := ceiling_add_lt_iff length
  unfold sizes
  simp only [bind, Except.bind, pure, Except.pure]
  by_cases hfits : length ≤ wordLimit - 2 * blockSize
  · have hlow : length ≤ ceiling length blockSize := le_ceiling blockSize_pos
    have hlt := htotal.mpr hfits
    have hround : roundUp length blockSize = .ok (ceiling length blockSize) :=
      roundUp_eq_ok_iff.mpr ⟨isPowerOfTwo_blockSize, by omega, rfl⟩
    rw [if_pos hfits, hround]
    dsimp only
    rw [addWords?_eq_ok_iff.mpr ⟨rfl, hlt⟩]
  · rw [if_neg hfits]
    by_cases hsum : length + blockSize < wordLimit
    · rw [roundUp_eq_ok_iff.mpr ⟨isPowerOfTwo_blockSize, hsum, rfl⟩]
      dsimp only
      rw [addWords?, if_neg (mt htotal.mp hfits)]
    · rw [roundUp_of_le_wordLimit (Nat.le_of_not_lt hsum)]

/-! ## Windows -/

/-- The window of a buffer that was made for a number of bytes: it lies in the store, and it is made
of whole blocks, no more of them than are needed. -/
structure Window (requested : Nat) (b : AlignedBuffer) : Prop where
  start_lt : b.start < blockSize
  fits : b.start + b.length ≤ b.storage.length
  start_aligned : blockSize ∣ b.base + b.start
  length_aligned : blockSize ∣ b.length
  requested_le : requested ≤ b.length
  length_lt : b.length < requested + blockSize

/-- A window of whole blocks fits in a store with one block more, wherever the store lies. -/
theorem window_ofStore (base requested : Nat) :
    Window requested (ofStore base (ceiling requested blockSize)) where
  start_lt := Nat.mod_lt _ blockSize_pos
  fits := by
    have hgap : gap base < blockSize := Nat.mod_lt _ blockSize_pos
    show gap base + ceiling requested blockSize ≤
      (List.replicate (ceiling requested blockSize + blockSize) 0).length
    rw [List.length_replicate]
    omega
  start_aligned := by
    show blockSize ∣ base + gap base
    unfold gap blockSize
    omega
  length_aligned := dvd_ceiling _ _
  requested_le := le_ceiling blockSize_pos
  length_lt := ceiling_lt blockSize_pos

theorem bytes_ofStore (base length : Nat) :
    (ofStore base length).bytes = List.replicate length 0 := by
  have hgap : gap base < blockSize := Nat.mod_lt _ blockSize_pos
  show ((List.replicate (length + blockSize) 0).drop (gap base)).take length = _
  rw [List.drop_replicate, List.take_replicate]
  congr 1
  omega

/-! ## Requests that may be refused -/

variable {allocate : Allocator} {base requested length : Nat} {b b' : AlignedBuffer}

theorem tryZeroed_of_lt (h : wordLimit - 2 * blockSize < length) :
    tryZeroed allocate length = .error (.panic .addOverflow) := by
  unfold tryZeroed
  rw [sizes_eq, if_neg (Nat.not_le_of_lt h)]

/-- A request that is measured is answered by a zeroed buffer in a store that the allocator gave, or
refused because the store would be too large or because the allocator has none. -/
theorem tryZeroed_cases (allocate : Allocator) (h : length ≤ wordLimit - 2 * blockSize) :
    (∃ base, allocate (ceiling length blockSize + blockSize) = some base ∧
      tryZeroed allocate length = .ok (ofStore base (ceiling length blockSize))) ∨
    ∃ size cause, tryZeroed allocate length = .error (.error (.allocation size cause)) ∧
      (cause = .capacity ∧ objectLimit < size ∨
        cause = .allocator ∧ size ≤ objectLimit ∧ allocate size = none) := by
  have hsizes : sizes length =
      .ok (ceiling length blockSize, ceiling length blockSize + blockSize) := by
    rw [sizes_eq, if_pos h]
  unfold tryZeroed
  rw [hsizes]
  dsimp only
  by_cases hlimit : ceiling length blockSize + blockSize ≤ objectLimit
  · rw [if_pos hlimit]
    cases hallocate : allocate (ceiling length blockSize + blockSize) with
    | some base => exact .inl ⟨base, rfl, rfl⟩
    | none => exact .inr ⟨_, _, rfl, .inr ⟨rfl, hlimit, hallocate⟩⟩
  · rw [if_neg hlimit]
    exact .inr ⟨_, _, rfl, .inl ⟨rfl, Nat.lt_of_not_le hlimit⟩⟩

/-- **Which requests for a buffer are answered.**  A request of at most `2 ^ 64 - 8192` bytes comes
to a buffer of zeros, whose window lies at the first block boundary of a store that the allocator
gave and is of the least length that is possible; or it is refused, because the store would be
larger than any object or because the allocator has none to give, with an error that is classified
as out of memory.  For more bytes, the length of the window or of the store is no word, and there is
neither a buffer nor an error. -/
theorem tryZeroed_extent (allocate : Allocator) (length : Nat) :
    (length ≤ wordLimit - 2 * blockSize →
      (∃ b, tryZeroed allocate length = .ok b ∧ allocate (b.length + blockSize) = some b.base ∧
        Window length b ∧ IsLeast {n | length ≤ n ∧ blockSize ∣ n} b.length ∧
        b.bytes = List.replicate b.length 0) ∨
      ∃ size cause, tryZeroed allocate length = .error (.error (.allocation size cause)) ∧
        (cause = .capacity ∧ objectLimit < size ∨
          cause = .allocator ∧ size ≤ objectLimit ∧ allocate size = none) ∧
        (JournalError.allocation size cause).status = .allocationFailure ∧
        (JournalError.allocation size cause).special = .outOfMemory) ∧
    (wordLimit - 2 * blockSize < length →
      tryZeroed allocate length = .error (.panic .addOverflow)) := by
  refine ⟨fun hle => ?_, tryZeroed_of_lt⟩
  rcases tryZeroed_cases allocate hle with
    ⟨base, hallocate, hok⟩ | ⟨size, cause, herror, hcause⟩
  · exact .inl ⟨_, hok, hallocate, window_ofStore base length, isLeast_ceiling blockSize_pos,
      bytes_ofStore base _⟩
  · exact .inr ⟨size, cause, herror, hcause, rfl, rfl⟩

/-- The largest request of all is not refused. -/
theorem tryZeroed_unrefused :
    tryZeroed (fun _ => none) 18446744073709551615 = .error (.panic .addOverflow) ∧
      (¬ ∃ b, tryZeroed (fun _ => none) 18446744073709551615 = .ok b) ∧
      ¬ ∃ e, tryZeroed (fun _ => none) 18446744073709551615 = .error (.error e) := by
  have hpanic : tryZeroed (fun _ => none) 18446744073709551615 = .error (.panic .addOverflow) :=
    tryZeroed_of_lt (by decide)
  rw [hpanic]
  refine ⟨rfl, ?_, ?_⟩
  · rintro ⟨b, hb⟩
    exact absurd hb (by simp)
  · rintro ⟨e, he⟩
    exact absurd he (by simp)

/-! ## Edits -/

/-- A change to the visible bytes. -/
inductive Edit where
  | fill (byte : UInt8)
  | write (position : Nat) (data : Bytes)
deriving DecidableEq

/-- The buffer after an edit, if it is within the window. -/
def edit? (b : AlignedBuffer) : Edit → Option AlignedBuffer
  | .fill byte => some (b.fill byte)
  | .write position data => b.write? position data

/-- A plain row of bytes after an edit, if it is within the row. -/
def Edit.plain? (bytes : Bytes) : Edit → Option Bytes
  | .fill byte => some (bytes.map fun _ => byte)
  | .write position data =>
    if position + data.length ≤ bytes.length then
      some (bytes.mapIdx fun i old => if position ≤ i then (data[i - position]?).getD old else old)
    else none

theorem length_overlayStore {storage data : Bytes} {position : Nat}
    (h : position + data.length ≤ storage.length) :
    (overlayStore storage position data).length = storage.length := by
  unfold overlayStore
  simp only [List.length_append, List.length_take, List.length_drop]
  omega

theorem getElem?_overlayStore {storage data : Bytes} {position : Nat}
    (h : position + data.length ≤ storage.length) (i : Nat) :
    (overlayStore storage position data)[i]? =
      if position ≤ i ∧ i < position + data.length then data[i - position]? else storage[i]? := by
  have hfirst : (storage.take position).length = position := by
    rw [List.length_take]
    omega
  unfold overlayStore
  rw [List.append_assoc]
  by_cases hbefore : i < position
  · rw [if_neg (by omega), List.getElem?_append_left (by omega), List.getElem?_take, if_pos hbefore]
  · rw [List.getElem?_append_right (by omega), hfirst]
    by_cases hwithin : i - position < data.length
    · rw [if_pos (by omega), List.getElem?_append_left hwithin]
    · rw [if_neg (by omega), List.getElem?_append_right (by omega), List.getElem?_drop]
      congr 1
      omega

theorem getElem?_bytes (b : AlignedBuffer) (i : Nat) :
    b.bytes[i]? = if i < b.length then b.storage[b.start + i]? else none := by
  unfold bytes
  rw [List.getElem?_take, List.getElem?_drop]

/-- The buffer after `data` is laid over its store, within the window. -/
def overlaid (b : AlignedBuffer) (position : Nat) (data : Bytes) : AlignedBuffer :=
  { b with storage := overlayStore b.storage (b.start + position) data }

theorem write?_eq (b : AlignedBuffer) (position : Nat) (data : Bytes) : b.write? position data =
    if position + data.length ≤ b.length then some (b.overlaid position data) else none := rfl

theorem fill_eq (b : AlignedBuffer) (byte : UInt8) :
    b.fill byte = b.overlaid 0 (List.replicate b.length byte) := rfl

/-- A buffer lies where another one does. -/
def SamePlace (b b' : AlignedBuffer) : Prop :=
  b'.base = b.base ∧ b'.start = b.start ∧ b'.length = b.length

namespace Window

theorem length_bytes (h : Window requested b) : b.bytes.length = b.length := by
  have hfits := h.fits
  unfold bytes
  rw [List.length_take, List.length_drop]
  omega

variable {position : Nat} {data : Bytes}

theorem overlaid (h : Window requested b) (hin : position + data.length ≤ b.length) :
    Window requested (b.overlaid position data) where
  start_lt := h.start_lt
  fits := by
    have hfits := h.fits
    show b.start + b.length ≤ (overlayStore b.storage (b.start + position) data).length
    rw [length_overlayStore (by omega)]
    exact hfits
  start_aligned := h.start_aligned
  length_aligned := h.length_aligned
  requested_le := h.requested_le
  length_lt := h.length_lt

/-- What is laid over the store within the window is laid over the visible bytes. -/
theorem bytes_overlaid (h : Window requested b) (hin : position + data.length ≤ b.length) :
    (b.overlaid position data).bytes = b.bytes.mapIdx fun i old =>
      if position ≤ i then (data[i - position]?).getD old else old := by
  have hfits := h.fits
  apply List.ext_getElem?
  intro i
  rw [getElem?_bytes, List.getElem?_mapIdx, getElem?_bytes]
  show (if i < b.length then (overlayStore b.storage (b.start + position) data)[b.start + i]?
    else none) = _
  by_cases hi : i < b.length
  · rw [if_pos hi, if_pos hi, getElem?_overlayStore (by omega)]
    have hstored : b.start + i < b.storage.length := by omega
    rw [List.getElem?_eq_getElem hstored]
    by_cases hafter : position ≤ i
    · by_cases hwithin : i < position + data.length
      · have hshift : b.start + i - (b.start + position) = i - position := by omega
        have hdata : i - position < data.length := by omega
        rw [if_pos (by omega), hshift, Option.map_some, if_pos hafter,
          List.getElem?_eq_getElem hdata, Option.getD_some]
      · have hdata : data[i - position]? = none := List.getElem?_eq_none (by omega)
        rw [if_neg (by omega), Option.map_some, if_pos hafter, hdata, Option.getD_none]
    · rw [if_neg (by omega), Option.map_some, if_neg hafter]
  · rw [if_neg hi, if_neg hi]
    rfl

/-- To fill the visible bytes is to lay one byte over all of them. -/
theorem bytes_fill (h : Window requested b) (byte : UInt8) :
    (b.fill byte).bytes = b.bytes.map fun _ => byte := by
  rw [fill_eq, h.bytes_overlaid (by simp)]
  apply List.ext_getElem?
  intro i
  rw [List.getElem?_mapIdx, List.getElem?_map, getElem?_bytes]
  by_cases hi : i < b.length
  · simp [hi]
  · simp [hi]

/-- An edit does to the visible bytes what it does to a plain row, and leaves the window where it
is. -/
theorem edit (h : Window requested b) (e : Edit) :
    (b.edit? e).map bytes = e.plain? b.bytes ∧
      ∀ b', b.edit? e = some b' → Window requested b' ∧ SamePlace b b' := by
  cases e with
  | fill byte =>
    refine ⟨congrArg some (h.bytes_fill byte), fun b' hb' => ?_⟩
    obtain rfl := Option.some.inj hb'
    rw [fill_eq]
    exact ⟨h.overlaid (by simp), rfl, rfl, rfl⟩
  | write position data =>
    show (b.write? position data).map bytes = _ ∧ ∀ b', b.write? position data = some b' → _
    rw [write?_eq, Edit.plain?, h.length_bytes]
    by_cases hin : position + data.length ≤ b.length
    · rw [if_pos hin, if_pos hin]
      refine ⟨congrArg some (h.bytes_overlaid hin), fun b' hb' => ?_⟩
      obtain rfl := Option.some.inj hb'
      exact ⟨h.overlaid hin, rfl, rfl, rfl⟩
    · rw [if_neg hin, if_neg hin]
      exact ⟨rfl, fun b' hb' => absurd hb' (by simp)⟩

/-- So do edits one after the other. -/
theorem edits (h : Window requested b) (es : List Edit) :
    (es.foldlM edit? b).map bytes = es.foldlM Edit.plain? b.bytes ∧
      ∀ b', es.foldlM edit? b = some b' → Window requested b' ∧ SamePlace b b' := by
  induction es generalizing b with
  | nil =>
    refine ⟨rfl, fun b' hb' => ?_⟩
    obtain rfl := Option.some.inj hb'
    exact ⟨h, rfl, rfl, rfl⟩
  | cons e es ih =>
    obtain ⟨hplain, hkept⟩ := h.edit e
    rw [List.foldlM_cons, List.foldlM_cons, ← hplain]
    cases hedit : b.edit? e with
    | none => exact ⟨rfl, fun b' hb' => absurd hb' (by simp)⟩
    | some c =>
      obtain ⟨hc, hbase, hstart, hlength⟩ := hkept c hedit
      obtain ⟨hplain', hkept'⟩ := ih hc
      refine ⟨hplain', fun b' hb' => ?_⟩
      obtain ⟨hb, hbase', hstart', hlength'⟩ := hkept' b' hb'
      exact ⟨hb, hbase'.trans hbase, hstart'.trans hstart, hlength'.trans hlength⟩

/-- In an aligned window, a slice is aligned if it starts and ends at block boundaries. -/
theorem isSliceAligned_iff (h : Window requested b) {first last : Nat} (hle : first ≤ last) :
    b.isSliceAligned first last = true ↔ blockSize ∣ first ∧ blockSize ∣ last := by
  have hstart := h.start_aligned
  unfold isSliceAligned isAligned
  rw [Bool.and_eq_true, beq_iff_eq, beq_iff_eq]
  unfold blockSize at *
  omega

end Window

/-! ## Buffers as they are made -/

/-- How a buffer is made in a store at an address: zeroed, for a number of bytes, or to hold some
data. -/
inductive Made (base : Nat) : (requested : Nat) → (data : Bytes) → AlignedBuffer → Prop where
  | zeroed {requested : Nat} {b : AlignedBuffer} (h : zeroed base requested = .ok b) :
    Made base requested [] b
  | tryZeroed {allocate : Allocator} {requested : Nat} {b : AlignedBuffer}
    (hbase : allocate (ceiling requested blockSize + blockSize) = some base)
    (h : tryZeroed allocate requested = .ok b) : Made base requested [] b
  | ofData {data : Bytes} {b : AlignedBuffer} (h : ofData base data = .ok b) :
    Made base data.length data b

theorem zeroed_eq_ok (h : zeroed base requested = .ok b) :
    b = ofStore base (ceiling requested blockSize) := by
  unfold zeroed at h
  rw [sizes_eq] at h
  split at h
  · simp only [bind, Except.bind] at h
    split at h
    · exact (Except.ok.inj h).symm
    · exact absurd h (by simp [throw, throwThe, MonadExceptOf.throw])
  · exact absurd h (by simp [bind, Except.bind])

theorem tryZeroed_eq_ok (h : tryZeroed allocate requested = .ok b) :
    b = ofStore b.base (ceiling requested blockSize) ∧
      allocate (ceiling requested blockSize + blockSize) = some b.base := by
  by_cases hle : requested ≤ wordLimit - 2 * blockSize
  · rcases tryZeroed_cases allocate hle with ⟨base, hallocate, hok⟩ | ⟨size, cause, herror, -⟩
    · obtain rfl := Except.ok.inj (hok.symm.trans h)
      exact ⟨rfl, hallocate⟩
    · exact absurd (herror.symm.trans h) (by simp)
  · rw [tryZeroed_of_lt (Nat.lt_of_not_le hle)] at h
    exact absurd h (by simp)

theorem ofData_eq_ok {data : Bytes} (h : ofData base data = .ok b) :
    b = (ofStore base (ceiling data.length blockSize)).overlaid 0 data := by
  unfold ofData at h
  cases hzeroed : zeroed base data.length with
  | error p =>
    rw [hzeroed] at h
    exact absurd h (by simp [bind, Except.bind])
  | ok b₀ =>
    rw [hzeroed] at h
    obtain rfl := zeroed_eq_ok hzeroed
    exact (Except.ok.inj h).symm

/-- Data laid over zeros from the first of them on is the data and the zeros behind it. -/
theorem mapIdx_replicate {data : Bytes} {n : Nat} (h : data.length ≤ n) :
    ((List.replicate n 0).mapIdx fun i old =>
      if 0 ≤ i then (data[i - 0]?).getD old else old) =
        data ++ List.replicate (n - data.length) 0 := by
  apply List.ext_getElem?
  intro i
  rw [List.getElem?_mapIdx, List.getElem?_replicate, List.getElem?_append, List.getElem?_replicate]
  by_cases hi : i < data.length
  · have hwithin : i < n := by omega
    simp [hi, hwithin]
  · have hiff : i < n ↔ i - data.length < n - data.length := by omega
    simp [hi, hiff]

/-- A buffer is made with a window that holds the data and then zeros. -/
theorem Made.window {data : Bytes} (h : Made base requested data b) :
    b.base = base ∧ Window requested b ∧
      b.bytes = data ++ List.replicate (b.length - data.length) 0 := by
  cases h with
  | zeroed h =>
    rw [zeroed_eq_ok h]
    exact ⟨rfl, window_ofStore base requested, bytes_ofStore base _⟩
  | tryZeroed hbase h =>
    obtain ⟨hb, hallocate⟩ := tryZeroed_eq_ok h
    obtain rfl : base = b.base := Option.some.inj (hbase.symm.trans hallocate)
    rw [hb]
    exact ⟨rfl, window_ofStore _ requested, bytes_ofStore _ _⟩
  | ofData h =>
    rw [ofData_eq_ok h]
    have hwindow := window_ofStore base data.length
    have hroom : 0 + data.length ≤ ceiling data.length blockSize := by
      rw [Nat.zero_add]
      exact le_ceiling blockSize_pos
    refine ⟨rfl, hwindow.overlaid hroom, ?_⟩
    rw [hwindow.bytes_overlaid hroom, bytes_ofStore]
    exact mapIdx_replicate (le_ceiling blockSize_pos)

/-- **The window of a buffer stays where it is.**  However a buffer was made and whatever is written
to it afterwards, its bytes are those of a plain row that began with its data and zeros behind, and
an edit is out of range for the one exactly if it is for the other.  Its window begins in the first
block of the store and does not go beyond its end, it is aligned and made of whole blocks, as few as
hold what was asked for, and it never moves; and a slice of it is aligned exactly if it starts and
ends at block boundaries. -/
theorem window_kept {data : Bytes} {b₀ : AlignedBuffer} (hmade : Made base requested data b₀)
    (es : List Edit) :
    (es.foldlM edit? b₀).map bytes =
      es.foldlM Edit.plain? (data ++ List.replicate (b₀.length - data.length) 0) ∧
    ∀ b, es.foldlM edit? b₀ = some b →
      (b.start < blockSize ∧ b.start + b.length ≤ b.storage.length) ∧
      (blockSize ∣ base + b.start ∧ blockSize ∣ b.length) ∧
      (requested ≤ b.length ∧ b.length < requested + blockSize) ∧
      (b.base = base ∧ b.start = b₀.start ∧ b.length = b₀.length) ∧
      b.bytes.length = b.length ∧
      ∀ first last, first ≤ last → last ≤ b.length →
        (b.isSliceAligned first last = true ↔ blockSize ∣ first ∧ blockSize ∣ last) := by
  obtain ⟨hbase, hwindow, hbytes⟩ := hmade.window
  obtain ⟨hplain, hkept⟩ := hwindow.edits es
  rw [← hbytes]
  refine ⟨hplain, fun b hb => ?_⟩
  obtain ⟨h, hsame, hstart, hlength⟩ := hkept b hb
  have hat : b.base = base := hsame.trans hbase
  exact ⟨⟨h.start_lt, h.fits⟩, ⟨hat ▸ h.start_aligned, h.length_aligned⟩,
    ⟨h.requested_le, h.length_lt⟩, ⟨hat, hstart, hlength⟩, h.length_bytes,
    fun first last hle _ => h.isSliceAligned_iff hle⟩

/-- A store that lies right behind a block boundary has its window at the last place possible. -/
theorem window_kept_behind_boundary :
    let es : List Edit := [.fill 1, .write 4095 [7]]
    Made 1 1 [] (ofStore 1 4096) ∧
      ∃ b, es.foldlM edit? (ofStore 1 4096) = some b ∧
        (b.start = 4095 ∧ b.length = 4096 ∧ b.start + b.length ≤ b.storage.length) ∧
        b.isSliceAligned 0 4096 = true ∧
        some b.bytes = es.foldlM Edit.plain? (List.replicate 4096 0) := by
  intro es
  have hmade : Made 1 1 [] (ofStore 1 4096) := .zeroed rfl
  obtain ⟨hbytes, hkept⟩ := window_kept hmade es
  have hedits : es.foldlM edit? (ofStore 1 4096) =
      some (((ofStore 1 4096).fill 1).overlaid 4095 [7]) := rfl
  obtain ⟨⟨-, hfits⟩, -, -, ⟨-, hstart, hlength⟩, -, hslices⟩ := hkept _ hedits
  rw [hedits] at hbytes
  refine ⟨hmade, _, hedits, ⟨hstart, hlength, hfits⟩, ?_, hbytes⟩
  exact (hslices 0 4096 (by decide) (Nat.le_of_eq hlength.symm)).mpr ⟨by decide, by decide⟩

end AlignedBuffer

end WriteAhead
