/-
# File content

The bytes of one regular file.  A content has a length and a byte at every position; positions
at or past the length hold zero, so two contents with the same length and the same bytes are
equal, and a file of 2^36 bytes costs no more than one of 16.

* `byteAt_overlay` and `length_overlay` say what a positional write does;
* `byteAt_setLength` says what a change of length does: what is cut off is forgotten, what is
  gained is zero.
-/

namespace WriteAhead

/-- A finite row of bytes, such as a buffer to be written. -/
abbrev Bytes : Type := List UInt8

/-- The content of a regular file. -/
@[ext] structure Content where
  /-- The number of bytes. -/
  length : Nat
  /-- The byte at each position. -/
  byteAt : Nat → UInt8
  /-- Nothing is stored past the end. -/
  byteAt_of_length_le : ∀ i, length ≤ i → byteAt i = 0

namespace Content

/-- The content of an empty file. -/
def empty : Content where
  length := 0
  byteAt := fun _ => 0
  byteAt_of_length_le := fun _ _ => rfl

instance : Inhabited Content := ⟨empty⟩

@[simp] theorem length_empty : empty.length = 0 := rfl

@[simp] theorem byteAt_empty (i : Nat) : empty.byteAt i = 0 := rfl

/-! ## Writing at a position -/

/-- The content after the bytes of `block` are laid over `c` from position `start`; a gap before
`start` is filled with zeros, and an empty block changes nothing. -/
def overlayBlock (c : Content) (start : Nat) (block : Array UInt8) : Content where
  length := if block.size = 0 then c.length else max c.length (start + block.size)
  byteAt := fun i =>
    if start ≤ i then (block[i - start]?).getD (c.byteAt i) else c.byteAt i
  byteAt_of_length_le := by
    intro i hi
    have hc : c.length ≤ i := by
      split at hi <;> omega
    by_cases hs : start ≤ i
    · have hn : block[i - start]? = none := by
        apply Array.getElem?_eq_none
        split at hi <;> omega
      simp [hs, hn, c.byteAt_of_length_le i hc]
    · simp [hs, c.byteAt_of_length_le i hc]

/-- The content after `bytes` are laid over `c` from position `start`. -/
def overlay (c : Content) (start : Nat) (bytes : Bytes) : Content :=
  c.overlayBlock start bytes.toArray

/-- The content that holds exactly `bytes`. -/
def ofBytes (bytes : Bytes) : Content :=
  empty.overlay 0 bytes

theorem length_overlay (c : Content) (start : Nat) (bytes : Bytes) :
    (c.overlay start bytes).length =
      if bytes = [] then c.length else max c.length (start + bytes.length) := by
  cases bytes <;> simp [overlay, overlayBlock]

theorem byteAt_overlay (c : Content) (start : Nat) (bytes : Bytes) (i : Nat) :
    (c.overlay start bytes).byteAt i =
      if start ≤ i then (bytes[i - start]?).getD (c.byteAt i) else c.byteAt i := by
  simp [overlay, overlayBlock]

@[simp] theorem overlay_nil (c : Content) (start : Nat) : c.overlay start [] = c := by
  apply Content.ext
  · simp [length_overlay]
  · funext i
    simp [byteAt_overlay]

/-- Laying two blocks one after the other is laying their concatenation. -/
theorem overlay_append (c : Content) (start : Nat) (xs ys : Bytes) :
    (c.overlay start xs).overlay (start + xs.length) ys = c.overlay start (xs ++ ys) := by
  apply Content.ext
  · simp only [length_overlay, List.append_eq_nil_iff, List.length_append]
    by_cases hx : xs = []
    · simp [hx]
    · by_cases hy : ys = []
      · simp [hx, hy]
      · simp only [hx, hy, and_self, if_false]
        omega
  · funext i
    simp only [byteAt_overlay, List.getElem?_append]
    by_cases h : start ≤ i
    · by_cases h1 : i - start < xs.length
      · have h2 : ¬ start + xs.length ≤ i := by omega
        simp [h, h1, h2]
      · have h2 : start + xs.length ≤ i := by omega
        have h3 : i - (start + xs.length) = i - start - xs.length := by omega
        simp [h, h1, h2, h3]
    · have h2 : ¬ start + xs.length ≤ i := by omega
      simp [h, h2]

@[simp] theorem length_ofBytes (bytes : Bytes) : (ofBytes bytes).length = bytes.length := by
  cases bytes <;> simp [ofBytes, length_overlay]

theorem byteAt_ofBytes (bytes : Bytes) (i : Nat) :
    (ofBytes bytes).byteAt i = (bytes[i]?).getD 0 := by
  simp [ofBytes, byteAt_overlay]

/-! ## Changing the length -/

/-- The content cut or zero-extended to exactly `n` bytes. -/
def setLength (c : Content) (n : Nat) : Content where
  length := n
  byteAt := fun i => if i < n then c.byteAt i else 0
  byteAt_of_length_le := by
    intro i hi
    have : ¬ i < n := by omega
    simp [this]

/-- The content zero-extended to `n` bytes, and left alone if it is at least that long. -/
def extendTo (c : Content) (n : Nat) : Content :=
  c.setLength (max c.length n)

@[simp] theorem length_setLength (c : Content) (n : Nat) : (c.setLength n).length = n := rfl

theorem byteAt_setLength (c : Content) (n i : Nat) :
    (c.setLength n).byteAt i = if i < n then c.byteAt i else 0 := rfl

@[simp] theorem setLength_length (c : Content) : c.setLength c.length = c := by
  apply Content.ext
  · rfl
  · funext i
    by_cases h : i < c.length
    · simp [byteAt_setLength, h]
    · simp [byteAt_setLength, h, c.byteAt_of_length_le i (by omega)]

@[simp] theorem length_extendTo (c : Content) (n : Nat) :
    (c.extendTo n).length = max c.length n := rfl

/-- Extending a content changes none of its bytes. -/
@[simp] theorem byteAt_extendTo (c : Content) (n i : Nat) :
    (c.extendTo n).byteAt i = c.byteAt i := by
  by_cases h : i < max c.length n
  · simp [extendTo, byteAt_setLength, h]
  · have hc : c.length ≤ i := by omega
    simp [extendTo, byteAt_setLength, h, c.byteAt_of_length_le i hc]

/-- After a longer preallocation, pinning the length gives the plain change of length. -/
theorem setLength_extendTo (c : Content) (n m : Nat) :
    (c.extendTo n).setLength m = c.setLength m := by
  apply Content.ext
  · rfl
  · funext i
    simp [byteAt_setLength]

/-! ## Reading -/

/-- The bytes stored from position `start`, at most `count` of them and none past the end. -/
def slice (c : Content) (start count : Nat) : Bytes :=
  (List.range (min count (c.length - start))).map fun k => c.byteAt (start + k)

/-- All bytes of the content. -/
def toBytes (c : Content) : Bytes :=
  c.slice 0 c.length

@[simp] theorem length_slice (c : Content) (start count : Nat) :
    (c.slice start count).length = min count (c.length - start) := by
  simp [slice]

@[simp] theorem length_toBytes (c : Content) : c.toBytes.length = c.length := by
  simp [toBytes]

theorem getElem?_slice (c : Content) (start count k : Nat)
    (h : k < min count (c.length - start)) :
    (c.slice start count)[k]? = some (c.byteAt (start + k)) := by
  simp [slice, List.getElem?_map, List.getElem?_range h]

theorem toBytes_ofBytes (bytes : Bytes) : (ofBytes bytes).toBytes = bytes := by
  apply List.ext_getElem?
  intro i
  by_cases h : i < bytes.length
  · rw [toBytes, getElem?_slice _ _ _ _ (by simpa using h)]
    simp [byteAt_ofBytes, List.getElem?_eq_getElem h]
  · rw [List.getElem?_eq_none (by simpa using h), List.getElem?_eq_none (by omega)]

end Content

end WriteAhead
