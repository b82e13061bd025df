/-
# Alignment

Unbuffered transfers move whole blocks: the address, the length and the position must be
multiples of the block size.  `roundUp` finds the next multiple of a power of two in 64-bit
words, where the sum it passes through may not exist.

* `land_complement` : clearing the low bits of a word leaves the multiple below it;
* `roundUp_eq_ok_iff` : rounding gives a value exactly when the alignment is a power of two and
  the intermediate sum is a word, and then the value is the ceiling.
-/
import WriteAhead.Outcome

namespace WriteAhead

/-- The block size of unbuffered transfers. -/
def blockSize : Nat := 4096

/-- A row of `length` bytes from `address` can be transferred unbuffered. -/
def isAligned (address length : Nat) : Bool :=
  address % blockSize == 0 && length % blockSize == 0

/-- The number is one of the powers of two that are words. -/
def isPowerOfTwo (n : Nat) : Bool :=
  (List.range 64).any fun k => n == 1 <<< k

theorem isPowerOfTwo_iff (n : Nat) : isPowerOfTwo n = true ↔ ∃ k, k < 64 ∧ n = 1 <<< k := by
  simp [isPowerOfTwo]

/-! ## Rounding -/

/-- The least multiple of `alignment` that is at least `value`. -/
def ceiling (value alignment : Nat) : Nat :=
  (value + alignment - 1) / alignment * alignment

/-- The word whose bits are those of another one flipped. -/
def complement (word : Nat) : Nat := wordLimit - 1 - word

/-- The next multiple of `alignment`, computed in words: the bits below it are cleared from a sum
that is large enough. -/
def roundUp (value alignment : Nat) : Except Panic Nat :=
  if isPowerOfTwo alignment then
    match addWords? value alignment with
    | .ok sum => .ok ((sum - 1) &&& complement (alignment - 1))
    | .error p => .error p
  else .error .alignmentNotPowerOfTwo

theorem toNat_not (word : UInt64) : (~~~word).toNat = complement word.toNat :=
  UInt64.toNat_not word

theorem testBit_complement {word : Nat} (h : word < wordLimit) (i : Nat) :
    (complement word).testBit i = (decide (i < 64) && !word.testBit i) := by
  have hsub : complement word = 2 ^ 64 - (word + 1) := by
    rw [Nat.add_comm, Nat.sub_add_eq]
    rfl
  rw [hsub, Nat.testBit_two_pow_sub_succ h]

/-- Clearing the bits of a word below a power of two leaves the multiple of it just below. -/
theorem land_complement {word alignment : Nat} (hword : word < wordLimit)
    (halignment : isPowerOfTwo alignment = true) :
    word &&& complement (alignment - 1) = word / alignment * alignment := by
  obtain ⟨k, hk, rfl⟩ := (isPowerOfTwo_iff alignment).mp halignment
  rw [Nat.one_shiftLeft]
  have hpow : 2 ^ k < wordLimit := Nat.pow_lt_pow_right (by decide) hk
  have hlow : 2 ^ k - 1 < wordLimit := Nat.lt_of_le_of_lt (Nat.sub_le _ _) hpow
  apply Nat.eq_of_testBit_eq
  intro i
  rw [Nat.testBit_and, testBit_complement hlow, Nat.testBit_two_pow_sub_one,
    Nat.testBit_mul_two_pow, Nat.testBit_div_two_pow]
  by_cases hi : k ≤ i
  · have hback : i - k + k = i := Nat.sub_add_cancel hi
    have hnot : ¬ i < k := Nat.not_lt_of_le hi
    by_cases hwithin : i < 64
    · simp [hi, hnot, hwithin, hback]
    · -- a word has no bits here
      have hhigh : 2 ^ 64 ≤ 2 ^ i := Nat.pow_le_pow_right (by decide) (Nat.le_of_not_lt hwithin)
      have hnone : word.testBit i = false :=
        Nat.testBit_lt_two_pow (Nat.lt_of_lt_of_le hword hhigh)
      simp [hback, hnone]
  · have hbelow : i < k := Nat.lt_of_not_le hi
    simp [hi, hbelow]

theorem roundUp_eq_ok_iff {value alignment r : Nat} :
    roundUp value alignment = .ok r ↔
      isPowerOfTwo alignment = true ∧ value + alignment < wordLimit ∧
        r = ceiling value alignment := by
  unfold roundUp
  by_cases hp : isPowerOfTwo alignment
  · by_cases hs : value + alignment < wordLimit
    · have hround : (value + alignment - 1) &&& complement (alignment - 1) =
          ceiling value alignment :=
        land_complement (Nat.lt_of_le_of_lt (Nat.sub_le _ _) hs) hp
      simp [hp, hs, addWords?, hround, eq_comm]
    · simp [hp, hs, addWords?]
  · simp [hp]

end WriteAhead
