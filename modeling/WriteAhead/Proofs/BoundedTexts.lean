/-
# Texts cut to fit

A text that is rendered into a buffer is cut where it does not fit, but never within a character.

Main statements:

* `isBoundary_iff` : the bytes alone tell where one character ends and the next begins;
* `isGreatest_boundaryUpTo` : the search backwards finds the last such place;
* `render_longest` : what is rendered is the longest part of the text that fits, and no other byte
  of the buffer is touched but the one that ends it.
-/
import WriteAhead.Errno.Rendering
import Mathlib.Order.Bounds.Basic

namespace WriteAhead.Text

/-! ## Characters in bytes -/

/-- The bytes that spell characters. -/
def spelled (cs : List Char) : Bytes := cs.flatMap String.utf8EncodeChar

theorem encode_eq (text : String) : encode text = spelled text.toList := rfl

@[simp] theorem spelled_nil : spelled [] = [] := rfl

theorem spelled_cons (c : Char) (cs : List Char) :
    spelled (c :: cs) = String.utf8EncodeChar c ++ spelled cs := List.flatMap_cons

theorem encode_append (s t : String) : encode (s ++ t) = encode s ++ encode t := by
  unfold encode
  rw [String.toList_append, List.flatMap_append]

theorem isContinuation_iff (b : UInt8) :
    isContinuation b = true ↔ 128 ≤ b.toNat ∧ b.toNat ≤ 191 := by
  simp [isContinuation, UInt8.le_iff_toNat_le]

/-- A character is spelled by a byte that continues nothing and at most three that do. -/
theorem exists_lead (c : Char) : ∃ b more, String.utf8EncodeChar c = b :: more ∧
    isContinuation b = false ∧ (∀ x ∈ more, isContinuation x = true) ∧ more.length ≤ 3 := by
  have hlead : ∀ n, n < 128 ∨ 191 < n → n < 256 → isContinuation (UInt8.ofNat n) = false := by
    intro n hn hbyte
    rw [Bool.eq_false_iff, ne_eq, isContinuation_iff, UInt8.toNat_ofNat', Nat.mod_eq_of_lt hbyte]
    omega
  have hmore : ∀ n, isContinuation (UInt8.ofNat (n % 64 + 128)) = true := by
    intro n
    rw [isContinuation_iff, UInt8.toNat_ofNat', Nat.mod_eq_of_lt (by omega)]
    omega
  have hall : ∀ ns : List Nat,
      ∀ x ∈ ns.map (fun n => UInt8.ofNat (n % 64 + 128)), isContinuation x = true := by
    intro ns x hx
    obtain ⟨n, -, rfl⟩ := List.mem_map.mp hx
    exact hmore n
  unfold String.utf8EncodeChar
  dsimp only
  generalize c.val.toNat = v
  split
  · exact ⟨_, _, rfl, hlead _ (by omega) (by omega), hall [], by simp⟩
  split
  · exact ⟨_, _, rfl, hlead _ (by omega) (by omega), hall [v], by simp⟩
  split
  · exact ⟨_, _, rfl, hlead _ (by omega) (by omega), hall [v / 64, v], by simp⟩
  · exact ⟨_, _, rfl, hlead _ (by omega) (by omega), hall [v / 4096, v / 64, v], by simp⟩

/-! ## Boundaries -/

/-- Position `n` in the bytes of a text is where some of its characters end and the others begin. -/
def IsCharBoundary (text : String) (n : Nat) : Prop :=
  ∃ first rest : String, text = first ++ rest ∧ (encode first).length = n

/-- Some of the characters are spelled by `n` bytes. -/
def EndAt (cs : List Char) (n : Nat) : Prop :=
  ∃ first rest, cs = first ++ rest ∧ (spelled first).length = n

theorem isCharBoundary_iff {text : String} {n : Nat} :
    IsCharBoundary text n ↔ EndAt text.toList n := by
  constructor
  · rintro ⟨first, rest, rfl, hn⟩
    exact ⟨first.toList, rest.toList, String.toList_append, hn⟩
  · rintro ⟨first, rest, htext, hn⟩
    refine ⟨String.ofList first, String.ofList rest, ?_, ?_⟩
    · rw [← String.toList_inj, htext]
      simp
    · rw [encode_eq, String.toList_ofList, hn]

theorem endAt_zero (cs : List Char) : EndAt cs 0 := ⟨[], cs, rfl, rfl⟩

theorem endAt_length (cs : List Char) : EndAt cs (spelled cs).length :=
  ⟨cs, [], (List.append_nil cs).symm, rfl⟩

theorem endAt_nil_iff {n : Nat} : EndAt [] n ↔ n = 0 := by
  constructor
  · rintro ⟨first, rest, hnil, rfl⟩
    rw [(List.append_eq_nil_iff.mp hnil.symm).1]
    rfl
  · rintro rfl
    exact endAt_zero []

/-- Some characters end before the first of them, or after it where some of the others end. -/
theorem endAt_cons_iff {c : Char} {cs : List Char} {n : Nat} : EndAt (c :: cs) n ↔
    n = 0 ∨ ∃ k, EndAt cs k ∧ n = (String.utf8EncodeChar c).length + k := by
  constructor
  · rintro ⟨first, rest, hcs, rfl⟩
    cases first with
    | nil => exact .inl rfl
    | cons d first =>
      obtain ⟨rfl, rfl⟩ := List.cons.inj hcs
      refine .inr ⟨_, ⟨first, rest, rfl, rfl⟩, ?_⟩
      rw [spelled_cons, List.length_append]
  · rintro (rfl | ⟨k, ⟨first, rest, rfl, rfl⟩, rfl⟩)
    · exact endAt_zero _
    · exact ⟨c :: first, rest, rfl, by rw [spelled_cons, List.length_append]⟩

/-- No four positions in a row lie all within one character. -/
theorem exists_endAt_near (cs : List Char) {n : Nat} (hn : n ≤ (spelled cs).length) :
    ∃ k, EndAt cs k ∧ k ≤ n ∧ n ≤ k + 3 := by
  induction cs generalizing n with
  | nil =>
    obtain rfl : n = 0 := by simpa using hn
    exact ⟨0, endAt_zero [], by omega, by omega⟩
  | cons c cs ih =>
    obtain ⟨b, more, hc, -, -, hshort⟩ := exists_lead c
    have hwidth : (String.utf8EncodeChar c).length ≤ 4 := by
      rw [hc, List.length_cons]
      omega
    rw [spelled_cons, List.length_append] at hn
    by_cases hfirst : n < (String.utf8EncodeChar c).length
    · exact ⟨0, endAt_zero _, by omega, by omega⟩
    · obtain ⟨m, rfl⟩ := Nat.exists_eq_add_of_le (Nat.le_of_not_lt hfirst)
      obtain ⟨k, hk, hle, hnear⟩ := ih (Nat.le_of_add_le_add_left hn)
      exact ⟨_, endAt_cons_iff.mpr (.inr ⟨k, hk, rfl⟩), by omega, by omega⟩

end WriteAhead.Text

namespace WriteAhead.Errno

open Text

/-! ## Boundaries in bytes -/

theorem isBoundary_append_left {xs : Bytes} (ys : Bytes) {n : Nat} (hn : n < xs.length) :
    isBoundary (xs ++ ys) n = isBoundary xs n := by
  unfold isBoundary
  rw [List.getElem?_append_left hn]

theorem isBoundary_append_right (xs ys : Bytes) (n : Nat) :
    isBoundary (xs ++ ys) (xs.length + n) = isBoundary ys n := by
  unfold isBoundary
  rw [List.getElem?_append_right (Nat.le_add_right _ _), Nat.add_sub_cancel_left]

/-- Within the bytes of one character only the first position is a boundary. -/
theorem isBoundary_utf8EncodeChar (c : Char) {n : Nat}
    (hn : n < (String.utf8EncodeChar c).length) :
    isBoundary (String.utf8EncodeChar c) n = true ↔ n = 0 := by
  obtain ⟨b, more, hc, hb, hmore, -⟩ := exists_lead c
  rw [hc] at hn ⊢
  cases n with
  | zero => simp [isBoundary, hb]
  | succ n =>
    have hn' : n < more.length := by simpa using hn
    simp [isBoundary, List.getElem?_eq_getElem hn', hmore _ (List.getElem_mem hn')]

theorem isBoundary_spelled_iff (cs : List Char) {n : Nat} (hn : n ≤ (spelled cs).length) :
    isBoundary (spelled cs) n = true ↔ EndAt cs n := by
  induction cs generalizing n with
  | nil =>
    obtain rfl : n = 0 := by simpa using hn
    simp [isBoundary, endAt_nil_iff]
  | cons c cs ih =>
    rw [spelled_cons, endAt_cons_iff]
    by_cases hfirst : n < (String.utf8EncodeChar c).length
    · rw [isBoundary_append_left _ hfirst, isBoundary_utf8EncodeChar c hfirst]
      constructor
      · exact .inl
      · rintro (hzero | ⟨k, -, rfl⟩)
        · exact hzero
        · omega
    · obtain ⟨k, rfl⟩ := Nat.exists_eq_add_of_le (Nat.le_of_not_lt hfirst)
      rw [spelled_cons, List.length_append] at hn
      rw [isBoundary_append_right, ih (by omega)]
      constructor
      · exact fun hk => .inr ⟨k, hk, rfl⟩
      · rintro (hzero | ⟨k', hk, heq⟩)
        · obtain rfl : k = 0 := by omega
          exact endAt_zero cs
        · obtain rfl : k = k' := by omega
          exact hk

/-- The bytes alone tell where one character of a text ends and the next begins. -/
theorem isBoundary_iff (text : String) {n : Nat} (hn : n ≤ (encode text).length) :
    isBoundary (encode text) n = true ↔ IsCharBoundary text n :=
  (isBoundary_spelled_iff text.toList hn).trans isCharBoundary_iff.symm

/-! ## The search backwards -/

/-- The search backwards for a boundary, as a loop that fails where it would go below zero. -/
def searchBack (bytes : Bytes) : Nat → Option Nat
  | 0 => if isBoundary bytes 0 then some 0 else none
  | n + 1 => if isBoundary bytes (n + 1) then some (n + 1) else searchBack bytes n

/-- The search ends at the first boundary that it comes to, if it starts after one. -/
theorem searchBack_eq {bytes : Bytes} (h : isBoundary bytes 0 = true) (n : Nat) :
    searchBack bytes n = some (boundaryUpTo bytes n) := by
  induction n with
  | zero => simp [searchBack, boundaryUpTo, h]
  | succ n ih =>
    unfold searchBack boundaryUpTo
    split
    · rfl
    · exact ih

theorem isGreatest_boundaryUpTo {bytes : Bytes} (h : isBoundary bytes 0 = true) (n : Nat) :
    IsGreatest {k | isBoundary bytes k = true ∧ k ≤ n} (boundaryUpTo bytes n) := by
  induction n with
  | zero => exact ⟨⟨h, Nat.le_refl 0⟩, fun k hk => hk.2⟩
  | succ n ih =>
    unfold boundaryUpTo
    split
    · next hlast => exact ⟨⟨hlast, Nat.le_refl _⟩, fun k hk => hk.2⟩
    · next hlast =>
      refine ⟨⟨ih.1.1, Nat.le_succ_of_le ih.1.2⟩, fun k hk => ?_⟩
      have hne : k ≠ n + 1 := fun heq => hlast (heq ▸ hk.1)
      have hle : k ≤ n + 1 := hk.2
      exact ih.2 ⟨hk.1, by omega⟩

theorem isBoundary_zero (text : String) : isBoundary (encode text) 0 = true :=
  (isBoundary_spelled_iff text.toList (Nat.zero_le _)).mpr (endAt_zero _)

/-! ## Rendering -/

variable {text : String} {buffer buffer' after after' : Bytes} {n n' : Nat}

/-- What a buffer holds after the longest part of a text that fits was rendered into it. -/
structure Rendered (text : String) (buffer : Bytes) (n : Nat) (after : Bytes) : Prop where
  /-- No longer part of the text would fit before the zero byte. -/
  greatest : IsGreatest
    {k | IsCharBoundary text k ∧ k ≤ min (encode text).length (buffer.length - 1)} n
  /-- The first bytes are those of the text, and spell a part of it. -/
  shown : after.take n = (encode text).take n ∧
    ∃ first rest : String, text = first ++ rest ∧ after.take n = encode first
  /-- A zero byte follows. -/
  ended : after[n]? = some 0
  /-- The rest of the buffer is as it was. -/
  kept : after.drop (n + 1) = buffer.drop (n + 1) ∧ after.length = buffer.length

theorem take_encode_of_isCharBoundary (h : IsCharBoundary text n) :
    ∃ first rest : String, text = first ++ rest ∧ (encode text).take n = encode first := by
  obtain ⟨first, rest, rfl, rfl⟩ := h
  refine ⟨first, rest, rfl, ?_⟩
  rw [encode_append]
  exact List.take_left

/-- A buffer that has any room holds the longest part of the text that fits. -/
theorem rendered_renderInto (text : String) (hbuffer : buffer ≠ []) :
    ∃ n after, renderInto (encode text) buffer = some (n, after) ∧
      Rendered text buffer n after := by
  obtain ⟨b, rest, rfl⟩ := List.exists_cons_of_ne_nil hbuffer
  refine ⟨_, _, rfl, ?_⟩
  have hgreatest := isGreatest_boundaryUpTo (isBoundary_zero text)
    (min (encode text).length rest.length)
  generalize boundaryUpTo (encode text) (min (encode text).length rest.length) = n at hgreatest
  obtain ⟨⟨hn, hfits⟩, hlast⟩ := hgreatest
  have hboundary : IsCharBoundary text n := (isBoundary_iff text (by omega)).mp hn
  have hlength : ((encode text).take n).length = n := by
    rw [List.length_take]
    omega
  have hshown : ((encode text).take n ++ 0 :: (b :: rest).drop (n + 1)).take n =
      (encode text).take n := List.take_left' hlength
  refine ⟨⟨⟨hboundary, hfits⟩, fun k hk => ?_⟩, ⟨hshown, ?_⟩, ?_, ?_, ?_⟩
  · obtain ⟨hk, hle⟩ := hk
    have hle' : k ≤ min (encode text).length rest.length := hle
    exact hlast ⟨(isBoundary_iff text (by omega)).mpr hk, hle'⟩
  · rw [hshown]
    exact take_encode_of_isCharBoundary hboundary
  · rw [List.getElem?_append_right (Nat.le_of_eq hlength), hlength, Nat.sub_self]
    rfl
  · rw [List.drop_append, hlength, List.drop_of_length_le (by omega), Nat.add_sub_cancel_left]
    rfl
  · simp only [List.length_append, List.length_cons, List.length_drop, hlength]
    omega

/-- Of `aé` only the first letter fits into three bytes beside the zero byte. -/
example : renderInto (encode "aé") [0xFF, 0xFF, 0xFF] = some (1, [0x61, 0, 0xFF]) := by decide

namespace Rendered

/-- A text that fits is rendered as a whole, and otherwise at most three bytes of room are given
up. -/
theorem length_cases (h : Rendered text buffer n after) :
    ((encode text).length < buffer.length → n = (encode text).length) ∧
      (buffer.length ≤ (encode text).length → buffer.length - 1 - n ≤ 3) := by
  obtain ⟨⟨-, hfits⟩, hlast⟩ := h.greatest
  constructor
  · intro hroom
    have hwhole : IsCharBoundary text (encode text).length :=
      isCharBoundary_iff.mpr (endAt_length text.toList)
    have hle : (encode text).length ≤ n := hlast ⟨hwhole, by omega⟩
    omega
  · intro hcut
    have hroom : buffer.length - 1 ≤ (spelled text.toList).length := by
      rw [← encode_eq]
      omega
    obtain ⟨k, hk, hle, hnear⟩ := exists_endAt_near text.toList hroom
    have hkn : k ≤ n := hlast ⟨isCharBoundary_iff.mpr hk, by omega⟩
    omega

/-- What is rendered with less room is the beginning of what is rendered with more. -/
theorem take_prefix_take (h : Rendered text buffer n after) (h' : Rendered text buffer' n' after')
    (hle : buffer.length ≤ buffer'.length) : after.take n <+: after'.take n' := by
  obtain ⟨⟨hboundary, hfits⟩, -⟩ := h.greatest
  have hn : n ≤ n' := h'.greatest.2 ⟨hboundary, by omega⟩
  rw [h.shown.1, h'.shown.1]
  exact List.take_prefix_take_left hn

end Rendered

/-- The bytes that a rendering shows before the zero byte. -/
def Rendering.shown (r : Rendering) : Bytes := r.buffer.take (r.written.getD 0)

variable (system : Int → String) (code : Int)

theorem render_nil : render system code [] = ⟨classify code, none, []⟩ := rfl

theorem render_of_ne_nil (hbuffer : buffer ≠ []) :
    ∃ n after, render system code buffer = ⟨classify code, some n, after⟩ ∧
      Rendered (system code) buffer n after := by
  obtain ⟨n, after, hrender, hrendered⟩ := rendered_renderInto (system code) hbuffer
  refine ⟨n, after, ?_, hrendered⟩
  unfold render
  rw [describe_eq, hrender]

theorem shown_prefix_shown (hle : buffer.length ≤ buffer'.length) :
    (render system code buffer).shown <+: (render system code buffer').shown := by
  by_cases hbuffer : buffer = []
  · rw [hbuffer]
    exact List.nil_prefix
  · have hbuffer' : buffer' ≠ [] := by
      rintro rfl
      exact hbuffer (List.length_eq_zero_iff.mp (Nat.le_zero.mp hle))
    obtain ⟨n, after, hrender, h⟩ := render_of_ne_nil system code hbuffer
    obtain ⟨n', after', hrender', h'⟩ := render_of_ne_nil system code hbuffer'
    rw [hrender, hrender']
    exact h.take_prefix_take h' hle

/-- **An error text is rendered as its longest part that fits.**  Whatever text the system has for a
code, it is described by this text, and its class does not depend on the buffer.  Without any room
nothing is written; with room, the buffer holds the longest part of the text that ends between two
characters and leaves room for a zero byte, then this byte, and then what was there before.  A text
that fits is shown as a whole, otherwise at most three bytes of room are given up, and with more
room the text only goes on.  The search backwards never goes below zero. -/
theorem render_longest (buffer : Bytes) :
    describe system code = system code ∧
    (render system code buffer).special = classify code ∧
    (buffer = [] → (render system code buffer).written = none ∧
      (render system code buffer).buffer = []) ∧
    (buffer ≠ [] → ∃ n, (render system code buffer).written = some n ∧
      Rendered (system code) buffer n (render system code buffer).buffer ∧
      ((encode (system code)).length < buffer.length → n = (encode (system code)).length) ∧
      (buffer.length ≤ (encode (system code)).length → buffer.length - 1 - n ≤ 3)) ∧
    (∀ buffer', buffer.length ≤ buffer'.length →
      (render system code buffer).shown <+: (render system code buffer').shown) ∧
    ∀ start, searchBack (encode (system code)) start =
      some (boundaryUpTo (encode (system code)) start) := by
  refine ⟨describe_eq system code, ?_, ?_, fun hbuffer => ?_,
    fun buffer' => shown_prefix_shown system code, searchBack_eq (isBoundary_zero _)⟩
  · by_cases hbuffer : buffer = []
    · rw [hbuffer, render_nil]
    · obtain ⟨n, after, hrender, -⟩ := render_of_ne_nil system code hbuffer
      rw [hrender]
  · rintro rfl
    exact ⟨rfl, rfl⟩
  · obtain ⟨n, after, hrender, hrendered⟩ := render_of_ne_nil system code hbuffer
    rw [hrender]
    exact ⟨n, rfl, hrendered, hrendered.length_cases⟩

end WriteAhead.Errno
