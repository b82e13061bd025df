/-
# Positions of repeated transfers

A transfer that moves less than it was asked to is repeated at the sum of its offset and of what
was moved before, and this sum is formed in words.  It cannot leave them: a kernel takes no transfer
at a negative offset, so that nothing is ever moved from an offset in the upper half of the words,
and from the lower half no buffer reaches beyond the last word.

Main statements:

* `Policy.transfersInRange` : a POSIX machine is such a kernel, whatever a policy decides;
* `Handle.transfers_stay_in_range` : no read and no write forms a sum that is no word.
-/
import WriteAhead.Proofs.Reading
import WriteAhead.Proofs.Writing

namespace WriteAhead

open Program

/-! ## Transfers and kernels -/

namespace SystemCall

/-- The position of a transfer, if the call is one. -/
def position? : SystemCall → Option UInt64
  | writeAt _ _ offset | readAt _ _ offset => some offset
  | _ => none

/-- The number of bytes that a transfer is asked to move. -/
def asked : SystemCall → Nat
  | writeAt _ bytes _ => bytes.length
  | readAt _ count _ => count
  | _ => 0

/-- The number of bytes that a transfer moved, by its result. -/
def moved : (c : SystemCall) → c.Result → Nat
  | writeAt _ _ _, count => count
  | readAt _ _ _, bytes => bytes.length
  | _, _ => 0

end SystemCall

/-- What a kernel keeps to in transfers.  One at a position that is negative as a signed word fails
and leaves the files, as `files` shows them, as they are; and none moves more than it was asked
to. -/
structure TransfersInRange {W F : Type} (h : Handler System W) (files : W → F) : Prop where
  refuses : ∀ (c : SystemCall) (position : UInt64) (w : W), c.position? = some position →
    position.toInt64 < 0 → (∃ code, (h c w).1 = .error code) ∧ files (h c w).2 = files w
  moved_le : ∀ (c : SystemCall) (w : W) (r : c.Result), (h c w).1 = .ok r → c.moved r ≤ c.asked

/-- A word is negative as a signed one exactly in its upper half. -/
theorem toInt64_neg_iff (position : UInt64) :
    position.toInt64 < 0 ↔ Machine.offsetLimit ≤ position.toNat := by
  have hneg : position.toInt64 < 0 ↔ position.toBitVec.toInt < 0 := Int64.lt_iff_toInt_lt
  rw [hneg, BitVec.toInt_neg_iff]
  show 2 ^ 64 ≤ 2 * position.toNat ↔ _
  unfold Machine.offsetLimit
  omega

/-- A transfer that is taken is in the lower half of the words. -/
theorem TransfersInRange.position_lt {W F : Type} {h : Handler System W} {files : W → F}
    (hkernel : TransfersInRange h files) {c : SystemCall} {position : UInt64}
    (hc : c.position? = some position) {w : W} {r : c.Result} (hr : (h c w).1 = .ok r) :
    position.toNat < Machine.offsetLimit := by
  by_contra hlarge
  obtain ⟨⟨code, hcode⟩, -⟩ := hkernel.refuses c position w hc
    ((toInt64_neg_iff position).mpr (Nat.le_of_not_lt hlarge))
  exact absurd (hcode.symm.trans hr) (by simp)

/-- A transfer that is taken at a sum was asked for at an offset in the lower half of the words. -/
theorem TransfersInRange.offset_lt {W F : Type} {h : Handler System W} {files : W → F}
    (hkernel : TransfersInRange h files) {c : SystemCall} {offset : UInt64} {before : Nat}
    (hword : offset.toNat + before < wordLimit)
    (hc : c.position? = some (UInt64.ofNat (offset.toNat + before))) {w : W} {r : c.Result}
    (hr : (h c w).1 = .ok r) : offset.toNat < Machine.offsetLimit := by
  have hlow := hkernel.position_lt hc hr
  rw [UInt64.toNat_ofNat_of_lt' hword] at hlow
  exact Nat.lt_of_le_of_lt (Nat.le_add_right _ _) hlow

/-! ## POSIX machines -/

theorem Machine.Answers.error_of_negative {P : SystemCall → Verdict → Prop} {m m' : Machine}
    {c : SystemCall} {position : UInt64} (hc : c.position? = some position)
    (hnegative : offsetLimit ≤ position.toNat) {r : c.Reply} (h : m.Answers P c r m') :
    (∃ code, r = .error code) ∧ m' = m := by
  rcases h.cases with ⟨code, -, hr, hm⟩ | ⟨v, -, hperform⟩
  · refine ⟨⟨code, hr⟩, hm.trans (afterFailure_eq ?_)⟩
    rintro d rfl
    exact absurd hc (by simp [SystemCall.position?])
  · cases c with
    | writeAt d bytes offset =>
      obtain rfl := Option.some.inj hc
      have hrefused : m.writeAt d (bytes.take (v.limit bytes.length)) offset =
          (.error Errno.invalidArgument, m) := if_pos hnegative
      obtain ⟨rfl, rfl⟩ := Prod.mk.inj (hrefused.symm.trans hperform)
      exact ⟨⟨_, rfl⟩, rfl⟩
    | readAt d count offset =>
      obtain rfl := Option.some.inj hc
      have hrefused : m.readAt d (v.limit count) offset = .error Errno.invalidArgument :=
        if_pos hnegative
      obtain ⟨hr, rfl⟩ := Prod.mk.inj hperform
      exact ⟨⟨_, hr.symm.trans hrefused⟩, rfl⟩
    | _ => exact absurd hc (by simp [SystemCall.position?])

theorem Machine.Answers.moved_le {P : SystemCall → Verdict → Prop} {m m' : Machine}
    {c : SystemCall} {r : c.Result} (h : m.Answers P c (.ok r) m') : c.moved r ≤ c.asked := by
  cases c with
  | writeAt d bytes offset =>
    rcases h.contentBehind with ⟨n, hn, hr, -⟩ | ⟨⟨code, hr⟩, -⟩
    · obtain rfl := Except.ok.inj hr
      exact hn
    · exact absurd hr (by simp)
  | readAt d count offset =>
    rcases h.cases with ⟨code, -, hr, -⟩ | ⟨v, -, hperform⟩
    · exact absurd hr (by simp)
    · have hread : m.readAt d (v.limit count) offset = .ok r := (Prod.mk.inj hperform).1
      have hlimit : v.limit count ≤ count := v.limit_le count
      rcases m.readAt_cases d (v.limit count) offset with hgot | ⟨code, hrefused⟩
      · obtain rfl := Except.ok.inj (hread.symm.trans hgot)
        show ((m.contentRead d).slice offset.toNat (v.limit count)).length ≤ count
        rw [Content.length_slice]
        omega
      · exact absurd (hread.symm.trans hrefused) (by simp)
  | _ => exact Nat.zero_le _

/-- A POSIX machine keeps to this, whatever a policy decides. -/
theorem Policy.transfersInRange {φ : Type} (decide : Policy φ) :
    TransfersInRange decide.handler (fun w => w.1.tree) where
  refuses c position w hc hnegative := by
    have hanswer :
        w.1.Answers (fun _ _ => True) c (decide.handler c w).1 (decide.handler c w).2.1 :=
      ⟨(decide c w.2).1, trivial, rfl⟩
    obtain ⟨hrefused, hsame⟩ :=
      hanswer.error_of_negative hc ((toInt64_neg_iff position).mp hnegative)
    exact ⟨hrefused, congrArg Machine.tree hsame⟩
  moved_le c w r hr := by
    have hanswer : w.1.Answers (fun _ _ => True) c (.ok r) (decide.handler c w).2.1 :=
      ⟨(decide c w.2).1, trivial, Prod.ext hr rfl⟩
    exact hanswer.moved_le

/-! ## The loops -/

namespace Posix

variable {W F : Type} {h : Handler System W} {files : W → F} {d : Descriptor} {offset : UInt64}

/-- A step that writes makes one call, and yields what it is answered with. -/
theorem run_writeAt (h : Handler System W) (patience : Nat) (bytes : Bytes) (position : UInt64)
    (w : W) :
    let answer := h (.writeAt d bytes position) w
    (serve patience (.writeAt d bytes position)).run h w =
      ⟨ofSystem answer.1, answer.2, [.answered (.writeAt d bytes position) answer.1]⟩ := rfl

/-- A step that reads makes one call, and yields what it is answered with and how long it is. -/
theorem run_readAt (h : Handler System W) (patience : Nat) (count : Nat) (position : UInt64)
    (w : W) :
    let answer := h (.readAt d count position) w
    (serve patience (.readAt d count position)).run h w =
      ⟨(ofSystem answer.1).map fun bytes => ⟨bytes.length, bytes⟩, answer.2,
        [.answered (.readAt d count position) answer.1]⟩ := by
  have honce : (once (.readAt d count position)).run h w =
      ⟨ofSystem (h (.readAt d count position) w).1, (h (.readAt d count position) w).2,
        [.answered (.readAt d count position) (h (.readAt d count position) w).1]⟩ := rfl
  show (readAt d count position).run h w = _
  unfold readAt
  rw [run_bind, honce]
  dsimp only
  cases (h (.readAt d count position) w).1 <;> rfl

/-- Where a transfer goes on is a word: nothing was moved yet, or its offset is in the lower half of
the words, from which no buffer reaches beyond them. -/
theorem position_lt_wordLimit {before left : Nat} (hsize : before + left ≤ objectLimit)
    (hoffset : 0 < before → offset.toNat < Machine.offsetLimit) :
    offset.toNat + before < wordLimit := by
  have hword : offset.toNat < wordLimit := offset.toNat_lt
  rcases Nat.eq_zero_or_pos before with rfl | hpos
  · exact hword
  · have hlow : offset.toNat < Machine.offsetLimit := hoffset hpos
    unfold objectLimit at hsize
    unfold Machine.offsetLimit at hlow
    unfold wordLimit
    omega

/-- The rest of a write goes on at words, and stops over no sum. -/
theorem writeRest_stays_in_range (hkernel : TransfersInRange h files) (patience total : Nat)
    (written : Nat) (rest : Bytes) (hsize : written + rest.length ≤ objectLimit)
    (hoffset : 0 < written → offset.toNat < Machine.offsetLimit) (w : W) :
    let r := (native patience (Handle.writeRest d offset total written rest)).run h w
    (∀ p, r.value ≠ .error (.panic p)) ∧
      ∀ c ∈ r.requests, ∃ k < rest.length, offset.toNat + (written + k) < wordLimit ∧
        c = .writeAt d (rest.drop k) (UInt64.ofNat (offset.toNat + (written + k))) := by
  fun_induction Handle.writeRest d offset total written rest generalizing w with
  | case1 written => exact ⟨fun p => by simp [native, through], by simp [native, through]⟩
  | case2 written rest hrest p hpanic =>
    have hword : addWords? offset.toNat written = .ok (offset.toNat + written) :=
      addWords?_eq_ok_iff.mpr ⟨rfl, position_lt_wordLimit hsize hoffset⟩
    exact absurd (hword.symm.trans hpanic) (by simp)
  | case3 written rest hrest position hposition ih =>
    obtain ⟨rfl, hword⟩ := addWords?_eq_ok_iff.mp hposition
    have hlength : 0 < rest.length := List.length_pos_iff.mpr hrest
    have hfirst : ∀ c ∈ [SystemCall.writeAt d rest (UInt64.ofNat (offset.toNat + written))],
        ∃ k < rest.length, offset.toNat + (written + k) < wordLimit ∧
          c = .writeAt d (rest.drop k) (UInt64.ofNat (offset.toNat + (written + k))) :=
      fun c hc => ⟨0, hlength, hword, List.mem_singleton.mp hc⟩
    dsimp only
    rw [native_ask, run_bind, run_writeAt]
    obtain ⟨⟨reply, w₁⟩, hanswer⟩ : ∃ answer : Except Int Nat × W,
      h (.writeAt d rest (UInt64.ofNat (offset.toNat + written))) w = answer := ⟨_, rfl⟩
    simp only [hanswer, Run.value_after, Run.requests_after, requestsOf_answered, requestsOf_nil]
    cases reply with
    | error code => exact ⟨fun p hp => absurd hp (by simp [native, through, ofSystem]), hfirst⟩
    | ok n =>
      have htaken := congrArg Prod.fst hanswer
      have hn : n ≤ rest.length := hkernel.moved_le (.writeAt d rest _) w n htaken
      by_cases hzero : n = 0
      · simp only [ofSystem, if_pos hzero]
        exact ⟨fun p hp => absurd hp (by simp [native, through]), hfirst⟩
      · -- something was moved, so that the offset is in the lower half of the words
        have hlow : offset.toNat < Machine.offsetLimit :=
          hkernel.offset_lt (c := .writeAt d rest _) hword rfl htaken
        have hdrop : written + n + (rest.drop n).length ≤ objectLimit := by
          rw [List.length_drop]
          omega
        have hmoved : written + n ≤ objectLimit := by omega
        have hsum : addWords? written n = .ok (written + n) :=
          addWords?_of_lt (Nat.lt_of_le_of_lt hmoved (by decide))
        obtain ⟨hvalue, hcalls⟩ := ih n hzero (written + n) hdrop (fun _ => hlow) w₁
        simp only [ofSystem, if_neg hzero, hsum]
        refine ⟨hvalue, fun c hc => ?_⟩
        rcases List.mem_append.mp hc with hc | hc
        · exact hfirst c hc
        · obtain ⟨k, hk, hin, rfl⟩ := hcalls c hc
          rw [List.length_drop] at hk
          rw [Nat.add_assoc] at hin
          refine ⟨n + k, by omega, hin, ?_⟩
          rw [List.drop_drop, Nat.add_assoc]

/-- The rest of a read goes on at words, and stops over no sum. -/
theorem readRest_stays_in_range (hkernel : TransfersInRange h files) (patience filled : Nat)
    (buffer : Bytes) (left : Nat) (hsize : filled + left ≤ objectLimit)
    (hoffset : 0 < filled → offset.toNat < Machine.offsetLimit) (w : W) :
    let r := (native patience (Handle.readRest d offset filled buffer left)).run h w
    (∀ p, r.value.outcome ≠ .error (.panic p)) ∧
      ∀ c ∈ r.requests, ∃ k < left, offset.toNat + (filled + k) < wordLimit ∧
        c = .readAt d (left - k) (UInt64.ofNat (offset.toNat + (filled + k))) := by
  fun_induction Handle.readRest d offset filled buffer left generalizing w with
  | case1 filled buffer => exact ⟨fun p => by simp [native, through], by simp [native, through]⟩
  | case2 filled buffer left p hpanic =>
    have hword : addWords? offset.toNat filled = .ok (offset.toNat + filled) :=
      addWords?_eq_ok_iff.mpr ⟨rfl, position_lt_wordLimit hsize hoffset⟩
    exact absurd (hword.symm.trans hpanic) (by simp)
  | case3 filled buffer left position hposition ih =>
    obtain ⟨rfl, hword⟩ := addWords?_eq_ok_iff.mp hposition
    have hfirst : ∀ c ∈ [SystemCall.readAt d (left + 1) (UInt64.ofNat (offset.toNat + filled))],
        ∃ k < left + 1, offset.toNat + (filled + k) < wordLimit ∧
          c = .readAt d (left + 1 - k) (UInt64.ofNat (offset.toNat + (filled + k))) :=
      fun c hc => ⟨0, Nat.succ_pos left, hword, List.mem_singleton.mp hc⟩
    dsimp only
    rw [native_ask, run_bind, run_readAt]
    obtain ⟨⟨reply, w₁⟩, hanswer⟩ : ∃ answer : Except Int Bytes × W,
      h (.readAt d (left + 1) (UInt64.ofNat (offset.toNat + filled))) w = answer := ⟨_, rfl⟩
    simp only [hanswer, Run.value_after, Run.requests_after, requestsOf_answered, requestsOf_nil]
    cases reply with
    | error code =>
      exact ⟨fun p hp => absurd hp (by simp [native, through, ofSystem, Except.map]), hfirst⟩
    | ok bytes =>
      have htaken := congrArg Prod.fst hanswer
      have hn : bytes.length ≤ left + 1 := hkernel.moved_le (.readAt d (left + 1) _) w bytes htaken
      by_cases hzero : bytes.length = 0
      · simp only [ofSystem, Except.map, if_pos hzero]
        exact ⟨fun p hp => absurd hp (by simp [native, through]), hfirst⟩
      · have hlow : offset.toNat < Machine.offsetLimit :=
          hkernel.offset_lt (c := .readAt d (left + 1) _) hword rfl htaken
        have hrest : filled + bytes.length + (left + 1 - bytes.length) ≤ objectLimit := by omega
        have hmoved : filled + bytes.length ≤ objectLimit := by omega
        have hsum : addWords? filled bytes.length = .ok (filled + bytes.length) :=
          addWords?_of_lt (Nat.lt_of_le_of_lt hmoved (by decide))
        obtain ⟨hvalue, hcalls⟩ :=
          ih ⟨bytes.length, bytes⟩ hzero (filled + bytes.length) hrest (fun _ => hlow) w₁
        simp only [ofSystem, Except.map, if_neg hzero, hsum]
        refine ⟨hvalue, fun c hc => ?_⟩
        rcases List.mem_append.mp hc with hc | hc
        · exact hfirst c hc
        · obtain ⟨k, hk, hin, rfl⟩ := hcalls c hc
          dsimp only at hk
          rw [Nat.add_assoc] at hin
          refine ⟨bytes.length + k, by omega, hin, ?_⟩
          rw [Nat.sub_sub, Nat.add_assoc]

/-! ## Refusals -/

theorem addWords?_zero (offset : UInt64) : addWords? offset.toNat 0 = .ok offset.toNat :=
  addWords?_eq_ok_iff.mpr ⟨rfl, offset.toNat_lt⟩

/-- A write at a negative offset is refused by its first call. -/
theorem writeRest_refused (hkernel : TransfersInRange h files) (patience total : Nat)
    {bytes : Bytes} (hbytes : bytes ≠ []) (hnegative : offset.toInt64 < 0) (w : W) :
    let r := (native patience (Handle.writeRest d offset total 0 bytes)).run h w
    ∃ code, r.value = .error (.error (.write offset total (.code code))) ∧
      r.history = [.answered (.writeAt d bytes offset) (.error code)] ∧
        files r.world = files w := by
  rw [Handle.writeRest, if_neg hbytes, addWords?_zero]
  dsimp only
  rw [UInt64.ofNat_toNat, native_ask, run_bind, run_writeAt]
  obtain ⟨⟨code, hcode⟩, hsame⟩ :=
    hkernel.refuses (.writeAt d bytes offset) offset w rfl hnegative
  dsimp only
  rw [hcode]
  exact ⟨code, rfl, rfl, hsame⟩

/-- A read at a negative offset is refused by its first call. -/
theorem readRest_refused (hkernel : TransfersInRange h files) (patience : Nat) {buffer : Bytes}
    (hbuffer : buffer ≠ []) (hnegative : offset.toInt64 < 0) (w : W) :
    let r := (native patience (Handle.readRest d offset 0 buffer buffer.length)).run h w
    ∃ code, r.value = ⟨.error (.error (.read offset buffer.length (.code code))), buffer⟩ ∧
      r.history = [.answered (.readAt d buffer.length offset) (.error code)] ∧
        files r.world = files w := by
  obtain ⟨left, hleft⟩ : ∃ left, buffer.length = left + 1 :=
    Nat.exists_eq_succ_of_ne_zero (mt List.length_eq_zero_iff.mp hbuffer)
  rw [hleft, Handle.readRest, addWords?_zero, ← hleft]
  dsimp only
  rw [UInt64.ofNat_toNat, native_ask, run_bind, run_readAt]
  obtain ⟨⟨code, hcode⟩, hsame⟩ :=
    hkernel.refuses (.readAt d buffer.length offset) offset w rfl hnegative
  dsimp only
  rw [hcode]
  exact ⟨code, rfl, rfl, hsame⟩

end Posix

namespace Handle

/-- **Repeated transfers form no sum that is no word.**  If a kernel refuses transfers at negative
offsets and moves no more than it is asked to, then a write and a read of a buffer that fits in
memory never stop over a sum, at whatever offset and however the kernel splits or fails them: each
call is made at a word, behind less of the buffer than there is, for all that is left of it.  At an
offset in the upper half of the words, the first call for a buffer that is not empty fails, and with
it the operation; the files and the buffer are left as they were. -/
theorem transfers_stay_in_range {W F : Type} {h : Handler System W} {files : W → F}
    (hkernel : TransfersInRange h files) {j : Handle} {d : Descriptor}
    (hd : j.descriptor = some d) (buffer : Bytes) (hbuffer : buffer.length ≤ objectLimit)
    (offset : UInt64) (patience : Nat) (w : W) :
    let wrote := (Posix.native patience (j.write buffer offset)).run h w
    let got := (Posix.native patience (j.read buffer offset)).run h w
    ((∀ p, wrote.value ≠ .error (.panic p)) ∧
      ∀ c ∈ wrote.requests, ∃ k < buffer.length, offset.toNat + k < wordLimit ∧
        c = .writeAt d (buffer.drop k) (UInt64.ofNat (offset.toNat + k))) ∧
    ((∀ p, got.value.outcome ≠ .error (.panic p)) ∧
      ∀ c ∈ got.requests, ∃ k < buffer.length, offset.toNat + k < wordLimit ∧
        c = .readAt d (buffer.length - k) (UInt64.ofNat (offset.toNat + k))) ∧
    (buffer ≠ [] → 2 ^ 63 ≤ offset.toNat →
      (∃ code, wrote.value = .error (.error (.write offset buffer.length (.code code))) ∧
        wrote.history = [.answered (.writeAt d buffer offset) (.error code)] ∧
          files wrote.world = files w) ∧
      ∃ code, got.value =
          ⟨.error (.error (.read offset buffer.length (.code code))), buffer⟩ ∧
        got.history = [.answered (.readAt d buffer.length offset) (.error code)] ∧
          files got.world = files w) := by
  have hwrite : j.write buffer offset = writeRest d offset buffer.length 0 buffer := by
    unfold write withFile
    rw [hd]
  have hread : j.read buffer offset = readRest d offset 0 buffer buffer.length := by
    unfold read
    rw [hd]
  rw [hwrite, hread]
  have hsize : 0 + buffer.length ≤ objectLimit := by
    rw [Nat.zero_add]
    exact hbuffer
  have hnone : 0 < 0 → offset.toNat < Machine.offsetLimit := fun h => absurd h (Nat.lt_irrefl 0)
  have hwrote := Posix.writeRest_stays_in_range (d := d) hkernel patience buffer.length 0 buffer
    hsize hnone w
  have hgot := Posix.readRest_stays_in_range (d := d) hkernel patience 0 buffer buffer.length
    hsize hnone w
  simp only [Nat.zero_add] at hwrote hgot
  refine ⟨hwrote, hgot, fun hbytes hupper => ?_⟩
  have hnegative : offset.toInt64 < 0 := (toInt64_neg_iff offset).mpr hupper
  exact ⟨Posix.writeRest_refused hkernel patience buffer.length hbytes hnegative w,
    Posix.readRest_refused hkernel patience hbytes hnegative w⟩

/-- From the last offset of all, the second byte would be at no word. -/
theorem transfers_stay_in_range_last_offset :
    let decide : Policy Unit := fun _ s => (.atMost 1, s)
    let d : Descriptor := ⟨0, ⟨[106]⟩⟩
    let j : Handle := ⟨some d, none, false⟩
    let m := (((Machine.ofTree FileTree.empty []).setContent 0
      (Content.ofBytes [7])).openTarget d.path ⟨true, .file 0⟩).2
    let wrote := (Posix.native 0 (j.write [1, 2] 18446744073709551615)).run decide.handler (m, ())
    let got := (Posix.native 0 (j.read [1, 2] 18446744073709551615)).run decide.handler (m, ())
    (∃ code, wrote.value =
        .error (.error (.write 18446744073709551615 2 (.code code))) ∧
      wrote.history.length = 1 ∧ wrote.world.1.tree = m.tree) ∧
    ∃ code, got.value =
        ⟨.error (.error (.read 18446744073709551615 2 (.code code))), [1, 2]⟩ ∧
      got.history.length = 1 ∧ got.world.1.tree = m.tree := by
  intro decide d j m wrote got
  obtain ⟨-, -, hrefused⟩ := transfers_stay_in_range decide.transfersInRange (j := j) (d := d) rfl
    [1, 2] (by decide) 18446744073709551615 0 (m, ())
  obtain ⟨⟨code, hvalue, hhistory, htree⟩, code', hvalue', hhistory', htree'⟩ :=
    hrefused (by decide) (by decide)
  exact ⟨⟨code, hvalue, congrArg List.length hhistory, htree⟩,
    code', hvalue', congrArg List.length hhistory', htree'⟩

end Handle

end WriteAhead
