/-
# Rounding up in words

Among the multiples of a power of two that are words there is a last one, and up to it every word
has a next multiple.  Rounding finds the next multiple of every word before the last one; at the
last one, the sum that it passes through is no word, although the result would be.

Main statements:

* `ceiling_lt_wordLimit_iff` : which words have a next multiple;
* `roundUp_extent` : which of them rounding finds.
-/
import WriteAhead.Proofs.Buffers
import Mathlib.Algebra.Order.Group.Nat

namespace WriteAhead

variable {value value' alignment : Nat}

/-! ## Ceilings of words -/

theorem ceiling_of_dvd (h : 0 < alignment) (hdvd : alignment ∣ value) :
    ceiling value alignment = value :=
  (isLeast_ceiling h).unique ⟨⟨Nat.le_refl value, hdvd⟩, fun _ hn => hn.1⟩

theorem ceiling_mono (h : 0 < alignment) (hle : value ≤ value') :
    ceiling value alignment ≤ ceiling value' alignment :=
  (isLeast_ceiling h).2 ⟨Nat.le_trans hle (le_ceiling h), dvd_ceiling value' alignment⟩

/-- Powers of two divide the number of words. -/
theorem dvd_wordLimit {k : Nat} (hk : k < 64) : 2 ^ k ∣ wordLimit :=
  Nat.pow_dvd_pow 2 (Nat.le_of_lt hk)

/-- A ceiling is a word exactly up to the last multiple that is one. -/
theorem ceiling_lt_wordLimit_iff (h : 0 < alignment) (hdvd : alignment ∣ wordLimit) :
    ceiling value alignment < wordLimit ↔ value ≤ wordLimit - alignment := by
  have hle : alignment ≤ wordLimit := Nat.le_of_dvd (by decide) hdvd
  constructor
  · intro hlt
    -- one multiple is below another by a whole step
    have hstep : alignment ≤ wordLimit - ceiling value alignment :=
      Nat.le_of_dvd (Nat.sub_pos_of_lt hlt) (Nat.dvd_sub hdvd (dvd_ceiling value alignment))
    have hlow : value ≤ ceiling value alignment := le_ceiling h
    omega
  · intro hvalue
    have hlast : ceiling value alignment ≤ wordLimit - alignment :=
      (isLeast_ceiling h).2 ⟨hvalue, Nat.dvd_sub hdvd (Nat.dvd_refl alignment)⟩
    omega

/-! ## Rounding -/

theorem isPowerOfTwo_two_pow {k : Nat} (hk : k < 64) : isPowerOfTwo (2 ^ k) = true :=
  (isPowerOfTwo_iff _).mpr ⟨k, hk, (Nat.one_shiftLeft k).symm⟩

/-- Rounding gives the ceiling of every word before the last multiple. -/
theorem roundUp_of_lt {k : Nat} (hk : k < 64) (h : value < wordLimit - 2 ^ k) :
    roundUp value (2 ^ k) = .ok (ceiling value (2 ^ k)) :=
  roundUp_eq_ok_iff.mpr ⟨isPowerOfTwo_two_pow hk, by omega, rfl⟩

/-- From the last multiple on, rounding passes through a sum that is no word. -/
theorem roundUp_of_le {k : Nat} (hk : k < 64) (h : wordLimit - 2 ^ k ≤ value) :
    roundUp value (2 ^ k) = .error .addOverflow := by
  have hpow : 2 ^ k ≤ wordLimit := Nat.le_of_dvd (by decide) (dvd_wordLimit hk)
  have hsum : addWords? value (2 ^ k) = .error .addOverflow := if_neg (by omega)
  rw [roundUp, if_pos (isPowerOfTwo_two_pow hk), hsum]

/-- **Rounding finds the next multiple of every word before the last multiple.**  The words that
have a next multiple of `2 ^ k` which is a word are those up to `2 ^ 64 - 2 ^ k`, and this number is
such a multiple itself.  Before it, rounding gives exactly the next multiple; multiples are left as
they are, and larger words are not rounded to smaller ones.  At this number, and beyond it, rounding
stops because a sum is no word. -/
theorem roundUp_extent (value : Nat) (k : Fin 64) :
    let alignment := 2 ^ (k : Nat)
    let last := wordLimit - alignment
    ((∃ n < wordLimit, value ≤ n ∧ alignment ∣ n) ↔ value ≤ last) ∧
    alignment ∣ last ∧
    (value < last → ∃ n < wordLimit, roundUp value alignment = .ok n ∧
      IsLeast {n | value ≤ n ∧ alignment ∣ n} n) ∧
    (value < last → alignment ∣ value → roundUp value alignment = .ok value) ∧
    (∀ value', value ≤ value' → value' < last → ∃ n n', roundUp value alignment = .ok n ∧
      roundUp value' alignment = .ok n' ∧ n ≤ n') ∧
    (last ≤ value → roundUp value alignment = .error .addOverflow) := by
  intro alignment last
  have hpos : 0 < alignment := Nat.two_pow_pos k
  have hdvd : alignment ∣ wordLimit := dvd_wordLimit k.isLt
  have hword : ∀ {value}, ceiling value alignment < wordLimit ↔ value ≤ last :=
    ceiling_lt_wordLimit_iff hpos hdvd
  refine ⟨⟨?_, ?_⟩, Nat.dvd_sub hdvd (Nat.dvd_refl _), ?_, ?_, ?_, roundUp_of_le k.isLt⟩
  · rintro ⟨n, hn, hmultiple⟩
    exact hword.mp (Nat.lt_of_le_of_lt ((isLeast_ceiling hpos).2 hmultiple) hn)
  · intro hvalue
    exact ⟨_, hword.mpr hvalue, (isLeast_ceiling hpos).1⟩
  · intro hvalue
    exact ⟨_, hword.mpr (Nat.le_of_lt hvalue), roundUp_of_lt k.isLt hvalue, isLeast_ceiling hpos⟩
  · intro hvalue hmultiple
    rw [roundUp_of_lt k.isLt hvalue, ceiling_of_dvd hpos hmultiple]
  · intro value' hle hvalue'
    exact ⟨_, _, roundUp_of_lt k.isLt (Nat.lt_of_le_of_lt hle hvalue'),
      roundUp_of_lt k.isLt hvalue', ceiling_mono hpos hle⟩

example : roundUp 9223372036854771713 4096 = .ok 9223372036854775808 := rfl

/-- The last block of the address space begins at a multiple, which is not rounded to itself. -/
theorem roundUp_unrounded :
    IsLeast {n | 18446744073709547520 ≤ n ∧ 4096 ∣ n} 18446744073709547520 ∧
      18446744073709547520 < wordLimit ∧
      roundUp 18446744073709547520 4096 = .error .addOverflow ∧
      roundUp 18446744073709547520 4096 ≠ .ok 18446744073709547520 := by
  have hstops : roundUp 18446744073709547520 4096 = .error .addOverflow :=
    roundUp_of_le (k := 12) (by decide) (by decide)
  refine ⟨⟨⟨Nat.le_refl _, by decide⟩, fun n hn => hn.1⟩, by decide, hstops, ?_⟩
  rw [hstops]
  exact fun h => absurd h (by simp)

end WriteAhead
