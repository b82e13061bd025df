/-
# Contents as rows of bytes

The bytes that a content holds, as a list, after each change of the content.
-/
import WriteAhead.Content

namespace WriteAhead

namespace Content

theorem getElem?_toBytes (c : Content) (i : Nat) :
    c.toBytes[i]? = if i < c.length then some (c.byteAt i) else none := by
  unfold toBytes
  by_cases hi : i < c.length
  · rw [if_pos hi, getElem?_slice c 0 c.length i (by simpa using hi), Nat.zero_add]
  · rw [if_neg hi, List.getElem?_eq_none (by simpa using Nat.le_of_not_lt hi)]

/-- A change of length cuts the bytes, or adds zeros to them. -/
theorem toBytes_setLength (c : Content) (n : Nat) :
    (c.setLength n).toBytes = c.toBytes.take n ++ List.replicate (n - c.length) 0 := by
  apply List.ext_getElem?
  intro i
  rw [getElem?_toBytes, length_setLength, byteAt_setLength, List.getElem?_append,
    List.length_take, length_toBytes, List.getElem?_take, getElem?_toBytes,
    List.getElem?_replicate]
  by_cases hn : i < n
  · by_cases hc : i < c.length
    · have hmin : i < min n c.length := by omega
      simp [hn, hc, hmin]
    · have hmin : ¬ i < min n c.length := by omega
      have hzero : i - min n c.length < n - c.length := by omega
      simp [hn, hmin, hzero, c.byteAt_of_length_le i (Nat.le_of_not_lt hc)]
  · have hmin : ¬ i < min n c.length := by omega
    have hend : ¬ i - min n c.length < n - c.length := by omega
    simp [hn, hmin, hend]

/-- A content that is not cut keeps its bytes in front. -/
theorem toBytes_setLength_of_le {c : Content} {n : Nat} (h : c.length ≤ n) :
    (c.setLength n).toBytes = c.toBytes ++ List.replicate (n - c.length) 0 := by
  rw [toBytes_setLength, List.take_of_length_le (by simpa using h)]

/-- Extending a content leaves its bytes in front. -/
theorem prefix_toBytes_extendTo (c : Content) (n : Nat) :
    c.toBytes <+: (c.extendTo n).toBytes := by
  unfold extendTo
  rw [toBytes_setLength_of_le (Nat.le_max_left _ _)]
  exact List.prefix_append _ _

/-- Bytes laid over a content replace what was there, after zeros up to where they start. -/
theorem toBytes_overlay (c : Content) (start : Nat) {bytes : Bytes} (h : bytes ≠ []) :
    (c.overlay start bytes).toBytes =
      c.toBytes.take start ++ List.replicate (start - c.length) 0 ++ bytes ++
        c.toBytes.drop (start + bytes.length) := by
  have hpos : 0 < bytes.length := List.length_pos_iff.mpr h
  apply List.ext_getElem?
  intro i
  rw [getElem?_toBytes, length_overlay, if_neg h, byteAt_overlay]
  simp only [List.getElem?_append, List.length_append, List.length_take, length_toBytes,
    List.length_replicate, List.getElem?_take, getElem?_toBytes, List.getElem?_replicate,
    List.getElem?_drop]
  have hfront : min start c.length + (start - c.length) = start := by omega
  rw [hfront]
  by_cases hstart : start ≤ i
  · by_cases hin : i < start + bytes.length
    · have hlen : i < max c.length (start + bytes.length) := by omega
      have hsome : i - start < bytes.length := by omega
      simp [hstart, hin, hlen, Nat.not_lt.mpr hstart, List.getElem?_eq_getElem hsome]
    · have hnone : bytes[i - start]? = none := List.getElem?_eq_none (by omega)
      have hback : start + bytes.length + (i - (start + bytes.length)) = i := by omega
      have hlen : i < max c.length (start + bytes.length) ↔ i < c.length := by omega
      simp [hstart, hin, hlen, hnone, hback]
  · have hlt : i < start := by omega
    have hin : i < start + bytes.length := by omega
    have hlen : i < max c.length (start + bytes.length) := by omega
    by_cases hc : i < c.length
    · have hmin : i < min start c.length := by omega
      simp [hstart, hlt, hin, hlen, hc, hmin]
    · have hmin : ¬ i < min start c.length := by omega
      have hzero : i - min start c.length < start - c.length := by omega
      simp [hstart, hlt, hin, hlen, hmin, hzero, c.byteAt_of_length_le i (Nat.le_of_not_lt hc)]

/-- What is read from a content is a stretch of its bytes. -/
theorem slice_eq (c : Content) (start count : Nat) :
    c.slice start count = (c.toBytes.drop start).take count := by
  apply List.ext_getElem?
  intro i
  rw [List.getElem?_take, List.getElem?_drop, getElem?_toBytes]
  by_cases hi : i < min count (c.length - start)
  · have hcount : i < count := by omega
    have hlen : start + i < c.length := by omega
    rw [getElem?_slice c start count i hi, if_pos hcount, if_pos hlen]
  · rw [List.getElem?_eq_none (by simpa using Nat.le_of_not_lt hi)]
    by_cases hcount : i < count
    · have hlen : ¬ start + i < c.length := by omega
      rw [if_pos hcount, if_neg hlen]
    · rw [if_neg hcount]

/-- Where a stretch that should not be is empty, the content is at its end. -/
theorem slice_eq_nil {c : Content} {start n : Nat} (hn : n ≠ 0) (h : c.slice start n = [])
    (count : Nat) : c.slice start count = [] := by
  have hlength := congrArg List.length h
  rw [length_slice, List.length_nil] at hlength
  apply List.length_eq_zero_iff.mp
  rw [length_slice]
  omega

/-- A stretch is read in parts, the first of which may be as short as one likes. -/
theorem slice_split (c : Content) (start : Nat) {n count : Nat} (h : n ≤ count) :
    c.slice start count =
      c.slice start n ++
        c.slice (start + (c.slice start n).length) (count - (c.slice start n).length) := by
  simp only [slice_eq, ← List.drop_drop]
  generalize c.toBytes.drop start = rest
  have hle : (rest.take n).length ≤ count := by
    rw [List.length_take]
    omega
  have hfirst : rest.take n = rest.take (rest.take n).length := by
    rw [List.length_take, ← List.take_eq_take_min]
  calc rest.take count
      = rest.take ((rest.take n).length + (count - (rest.take n).length)) := by
        rw [Nat.add_sub_cancel' hle]
    _ = rest.take (rest.take n).length ++
          (rest.drop (rest.take n).length).take (count - (rest.take n).length) := List.take_add
    _ = rest.take n ++ (rest.drop (rest.take n).length).take (count - (rest.take n).length) := by
        rw [← hfirst]

end Content

end WriteAhead
