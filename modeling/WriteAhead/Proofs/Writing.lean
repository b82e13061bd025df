/-
# Writing in parts

A platform may lay down fewer bytes than it is given, so a write is a row of calls.  Whatever the
platform makes of each of them, the parts lie one behind the other, and the write gets as far as
they do.

Main statements:

* `Handle.write_in_parts` : each call of a write goes on where the one before it ended, with all
  that is left, until nothing is left or a call does not go on;
* `Posix.laysOver` : a POSIX machine is such a platform, whatever a policy decides.
-/
import WriteAhead.Proofs.Benign
import Mathlib.Algebra.BigOperators.Group.List.Basic
import Mathlib.Algebra.GroupWithZero.Nat

namespace WriteAhead

open Program

variable {W : Type}

/-! ## Platforms that lay down first parts -/

/-- What is written by way of `d` is laid over `content`: a call lays down a first part of its
bytes and says how long it is, or fails and lays down nothing. -/
def LaysOver (h : Handler Steps W) (content : W → Content) (d : Descriptor) : Prop :=
  ∀ (bytes : Bytes) (position : UInt64) (w : W),
    let answer := h (.writeAt d bytes position) w
    (∃ n ≤ bytes.length, answer.1 = .ok n ∧
        content answer.2 = (content w).overlay position.toNat (bytes.take n)) ∨
      (∃ e, answer.1 = .error e) ∧ content answer.2 = content w

/-! ## POSIX machines -/

/-- The content that is written by way of a descriptor: that of the file it has open for writing,
if there is one. -/
def Machine.contentBehind (m : Machine) (d : Descriptor) : Content :=
  match m.opened d.number with
  | some ⟨true, .file id⟩ => m.tree.content id
  | _ => Content.empty

theorem Machine.contentBehind_of_opened {m : Machine} {d : Descriptor} {id : FileId}
    (hopen : m.opened d.number = some ⟨true, .file id⟩) :
    m.contentBehind d = m.tree.content id := by
  unfold contentBehind
  rw [hopen]

/-- A machine lays bytes over the file that is open for writing, or refuses them. -/
theorem Machine.writeAt_cases (m : Machine) (d : Descriptor) (bytes : Bytes) (offset : UInt64) :
    (∃ id, m.opened d.number = some ⟨true, .file id⟩ ∧ m.writeAt d bytes offset =
        (.ok bytes.length, m.setContent id ((m.tree.content id).overlay offset.toNat bytes))) ∨
      ∃ code, m.writeAt d bytes offset = (.error code, m) := by
  unfold writeAt
  split
  · exact .inr ⟨_, rfl⟩
  · split
    · next id hopen =>
      split
      · exact .inr ⟨_, rfl⟩
      · exact .inl ⟨id, hopen, rfl⟩
    · exact .inr ⟨_, rfl⟩

theorem Machine.Answers.contentBehind {P : SystemCall → Verdict → Prop} {m m' : Machine}
    {d : Descriptor} {bytes : Bytes} {offset : UInt64} {r : Except Int Nat}
    (h : m.Answers P (.writeAt d bytes offset) r m') :
    (∃ n ≤ bytes.length, r = .ok n ∧
        m'.contentBehind d = (m.contentBehind d).overlay offset.toNat (bytes.take n)) ∨
      (∃ code, r = .error code) ∧ m' = m := by
  rcases h.cases with ⟨code, -, rfl, hm⟩ | ⟨v, -, hperform⟩
  · exact .inr ⟨⟨code, rfl⟩, hm.trans (afterFailure_eq (by simp))⟩
  · have hwrite : m.writeAt d (bytes.take (v.limit bytes.length)) offset = (r, m') := hperform
    rcases m.writeAt_cases d (bytes.take (v.limit bytes.length)) offset with
      ⟨id, hopen, hlaid⟩ | ⟨code, hrefused⟩
    · obtain ⟨rfl, rfl⟩ := Prod.mk.inj (hlaid.symm.trans hwrite)
      refine .inl ⟨_, List.length_take_le' _ _, rfl, ?_⟩
      have hopen' : (m.setContent id ((m.tree.content id).overlay offset.toNat
          (bytes.take (v.limit bytes.length)))).opened d.number = some ⟨true, .file id⟩ := hopen
      rw [contentBehind_of_opened hopen, contentBehind_of_opened hopen', tree_setContent,
        content_setContent_self, List.length_take, ← List.take_eq_take_min]
    · obtain ⟨rfl, rfl⟩ := Prod.mk.inj (hrefused.symm.trans hwrite)
      exact .inr ⟨⟨code, rfl⟩, rfl⟩

/-- A POSIX machine lays down first parts of what it is given, whatever a policy decides. -/
theorem Posix.laysOver {φ : Type} (patience : Nat) (decide : Policy φ) (d : Descriptor) :
    LaysOver (served (serve patience) decide.handler) (fun w => w.1.contentBehind d) d := by
  intro bytes position w
  obtain ⟨reply, hreply, hvalue, -⟩ := canEnd_once.mp
    (canEnd_run decide.within_true (once (.writeAt d bytes position)) w)
  rcases hreply.contentBehind with ⟨n, hn, rfl, hlaid⟩ | ⟨⟨code, rfl⟩, hkept⟩
  · exact .inl ⟨n, hn, hvalue, hlaid⟩
  · exact .inr ⟨⟨_, hvalue⟩, congrArg (Machine.contentBehind · d) hkept⟩

namespace Handle

/-! ## The calls of a write -/

/-- The call of a write of `bytes` from `position` on that comes after `k` of them were laid down,
and its reply. -/
def wroteAfter (d : Descriptor) (position : Nat) (bytes : Bytes) (k : Nat)
    (reply : Except SystemError Nat) : Happening Steps Event :=
  .answered (.writeAt d (bytes.drop k) (UInt64.ofNat (position + k))) reply

/-- The calls of a write that lay down as many bytes as `counts` says, each after those before
it. -/
def parts (d : Descriptor) (position : Nat) (bytes : Bytes) (counts : List Nat) :
    List (Happening Steps Event) :=
  counts.mapIdx fun i n => wroteAfter d position bytes (counts.take i).sum (.ok n)

@[simp] theorem parts_nil (d : Descriptor) (position : Nat) (bytes : Bytes) :
    parts d position bytes [] = [] := rfl

/-- A call that comes after `n + k` bytes is the one that comes after `k` of what `n` left. -/
theorem wroteAfter_drop (d : Descriptor) (position : Nat) (bytes : Bytes) (n k : Nat)
    (reply : Except SystemError Nat) :
    wroteAfter d (position + n) (bytes.drop n) k reply =
      wroteAfter d position bytes (n + k) reply := by
  unfold wroteAfter
  rw [List.drop_drop, Nat.add_assoc]

/-- After its first call, a write goes on as a write of what is left. -/
theorem parts_cons (d : Descriptor) (position : Nat) (bytes : Bytes) (n : Nat)
    (counts : List Nat) :
    parts d position bytes (n :: counts) =
      wroteAfter d position bytes 0 (.ok n) :: parts d (position + n) (bytes.drop n) counts := by
  unfold parts
  rw [List.mapIdx_cons]
  simp only [List.take_zero, List.sum_nil, List.take_succ_cons, List.sum_cons, wroteAfter_drop]

/-- What a write of `bytes` from `position` on came to, after calls that laid down as many bytes
as `counts` says: all were laid down, or one more call failed or laid down nothing.  The error
names the offset and the length of the whole write. -/
inductive CameTo (d : Descriptor) (offset : UInt64) (total position : Nat) (bytes : Bytes)
    (counts : List Nat) : Outcome Unit → List (Happening Steps Event) → Prop where
  | finished (hsum : counts.sum = bytes.length) :
    CameTo d offset total position bytes counts (.ok ()) (parts d position bytes counts)
  | failed (hsum : counts.sum < bytes.length) (e : SystemError) :
    CameTo d offset total position bytes counts (.error (.error (.write offset total e)))
      (parts d position bytes counts ++ [wroteAfter d position bytes counts.sum (.error e)])
  | stuck (hsum : counts.sum < bytes.length) :
    CameTo d offset total position bytes counts
      (.error (.error (.write offset total (.kind .writeZero))))
      (parts d position bytes counts ++ [wroteAfter d position bytes counts.sum (.ok 0)])

namespace CameTo

variable {d : Descriptor} {offset : UInt64} {total position : Nat} {bytes : Bytes}
  {counts : List Nat} {value : Outcome Unit} {history : List (Happening Steps Event)}

theorem sum_le (h : CameTo d offset total position bytes counts value history) :
    counts.sum ≤ bytes.length := by
  cases h with
  | finished hsum => exact Nat.le_of_eq hsum
  | failed hsum | stuck hsum => exact Nat.le_of_lt hsum

theorem eq_ok_iff (h : CameTo d offset total position bytes counts value history) :
    value = .ok () ↔ counts.sum = bytes.length := by
  cases h with
  | finished hsum => simp [hsum]
  | failed hsum | stuck hsum => simp [Nat.ne_of_lt hsum]

/-- What a write of the rest came to, the whole write came to, after one more call. -/
theorem cons {n : Nat} (hn : n ≤ bytes.length)
    (h : CameTo d offset total (position + n) (bytes.drop n) counts value history) :
    CameTo d offset total position bytes (n :: counts) value
      (wroteAfter d position bytes 0 (.ok n) :: history) := by
  have hlength : (bytes.drop n).length = bytes.length - n := List.length_drop
  cases h with
  | finished hsum =>
    rw [← parts_cons]
    exact .finished (by rw [List.sum_cons]; omega)
  | failed hsum e =>
    rw [← List.cons_append, ← parts_cons, wroteAfter_drop, ← List.sum_cons]
    exact .failed (by rw [List.sum_cons]; omega) e
  | stuck hsum =>
    rw [← List.cons_append, ← parts_cons, wroteAfter_drop, ← List.sum_cons]
    exact .stuck (by rw [List.sum_cons]; omega)

/-- Each call but the last lays down something, so there are no more calls than bytes. -/
theorem length_le (h : CameTo d offset total position bytes counts value history)
    (hpos : ∀ n ∈ counts, 0 < n) : history.length ≤ bytes.length := by
  have hcounts : counts.length ≤ counts.sum := by
    exact List.length_le_sum_of_one_le counts hpos
  have hparts : (parts d position bytes counts).length = counts.length := List.length_mapIdx
  cases h with
  | finished hsum => omega
  | failed hsum | stuck hsum =>
    rw [List.length_append, List.length_singleton]
    omega

end CameTo

/-! ## The loop -/

variable {h : Handler Steps W} {content : W → Content} {d : Descriptor}

/-- The rest of a write goes on where it stands, whatever the platform makes of each call. -/
theorem writeRest_in_parts (hlays : LaysOver h content d) (offset : UInt64)
    (total written : Nat) (rest : Bytes)
    (hrange : offset.toNat + written + rest.length < wordLimit) (w : W) :
    let r := (writeRest d offset total written rest).run h w
    ∃ counts : List Nat, (∀ n ∈ counts, 0 < n) ∧
      CameTo d offset total (offset.toNat + written) rest counts r.value r.history ∧
      content r.world =
        (content w).overlay (offset.toNat + written) (rest.take counts.sum) := by
  fun_induction writeRest d offset total written rest generalizing w with
  | case1 written => exact ⟨[], by simp, .finished rfl, by simp⟩
  | case2 written rest hrest p hpanic =>
    rw [(addWords?_eq_ok_iff (c := offset.toNat + written)).mpr ⟨rfl, by omega⟩] at hpanic
    exact absurd hpanic (by simp)
  | case3 written rest hrest position hposition ih =>
    obtain ⟨rfl, hword⟩ := addWords?_eq_ok_iff.mp hposition
    have hlength : ([] : List Nat).sum < rest.length := List.length_pos_iff.mpr hrest
    have hposition : (UInt64.ofNat (offset.toNat + written)).toNat = offset.toNat + written :=
      UInt64.toNat_ofNat_of_lt hword
    have hlaid := hlays rest (UInt64.ofNat (offset.toNat + written)) w
    rw [run_ask]
    generalize h (.writeAt d rest (UInt64.ofNat (offset.toNat + written))) w = answer at hlaid ⊢
    obtain ⟨reply, w₁⟩ := answer
    rcases hlaid with ⟨n, hn, hreply, hlaid⟩ | ⟨⟨e, hreply⟩, hkept⟩
    · obtain rfl : reply = .ok n := hreply
      rw [hposition] at hlaid
      by_cases hzero : n = 0
      · subst hzero
        exact ⟨[], by simp, .stuck hlength, by simpa using hlaid⟩
      · have hsum : addWords? written n = .ok (written + n) :=
          addWords?_eq_ok_iff.mpr ⟨rfl, by omega⟩
        have hdrop : offset.toNat + (written + n) + (rest.drop n).length < wordLimit := by
          rw [List.length_drop]
          omega
        obtain ⟨counts, hpos, hcame, hcontent⟩ := ih n hzero (written + n) hdrop w₁
        rw [← Nat.add_assoc] at hcame hcontent
        simp only [if_neg hzero, hsum, Run.value_after, Run.world_after, Run.history_after]
        refine ⟨n :: counts, ?_, hcame.cons hn, ?_⟩
        · exact List.forall_mem_cons.mpr ⟨Nat.pos_of_ne_zero hzero, hpos⟩
        · -- what the other calls lay down comes right behind what this one did
          have htake : (rest.take n).length = n := List.length_take_of_le hn
          rw [hcontent, hlaid, List.sum_cons, List.take_add, ← Content.overlay_append, htake]
    · obtain rfl : reply = .error e := hreply
      exact ⟨[], by simp, .failed hlength e, by simpa using hkept⟩

/-- **A write lays down adjacent parts of its bytes, from the first on, and gets as far as they
do.**  Each call is made where the one before it ended, with all that is left, and moves something,
the last one of a write that fails apart.  The write succeeds if and only if the parts add up to all
bytes; otherwise its error names the whole range, and the cause of the last call or, for a call
that moved nothing, one without a code. -/
theorem write_in_parts (hlays : LaysOver h content d) {j : Handle} (hd : j.descriptor = some d)
    (bytes : Bytes) (offset : UInt64) (hrange : offset.toNat + bytes.length < wordLimit) (w : W) :
    let r := (j.write bytes offset).run h w
    (∃ counts : List Nat, (∀ n ∈ counts, 0 < n) ∧
      CameTo d offset bytes.length offset.toNat bytes counts r.value r.history ∧
      content r.world = (content w).overlay offset.toNat (bytes.take counts.sum) ∧
      (r.value = .ok () ↔ counts.sum = bytes.length)) ∧
    (r.value = .ok () → content r.world = (content w).overlay offset.toNat bytes) ∧
    (JournalError.write offset bytes.length (.kind .writeZero)).detailCode = 0 ∧
    r.history.length ≤ bytes.length ∧
    (bytes = [] → r.value = .ok () ∧ r.history = []) := by
  have hwrite : j.write bytes offset = writeRest d offset bytes.length 0 bytes := by
    unfold write withFile
    rw [hd]
  intro r
  obtain ⟨counts, hpos, hcame, hcontent⟩ :=
    writeRest_in_parts hlays offset bytes.length 0 bytes hrange w
  rw [← hwrite] at hcame hcontent
  have hok : r.value = .ok () ↔ counts.sum = bytes.length := hcame.eq_ok_iff
  have hcalls : r.history.length ≤ bytes.length := hcame.length_le hpos
  refine ⟨⟨counts, hpos, hcame, hcontent, hok⟩, fun hvalue => ?_, rfl, hcalls, ?_⟩
  · rw [hcontent, hok.mp hvalue, List.take_length, Nat.add_zero]
  · rintro rfl
    exact ⟨hok.mpr (Nat.le_zero.mp hcame.sum_le),
      List.length_eq_zero_iff.mp (Nat.le_zero.mp hcalls)⟩

/-- Five bytes are written to a machine that moves two of them at a time. -/
theorem write_in_parts_two_at_a_time :
    let decide : Policy Unit := fun _ s => (.atMost 2, s)
    let d : Descriptor := ⟨0, ⟨[106]⟩⟩
    let m := ((Machine.ofTree FileTree.empty []).openTarget d.path ⟨true, .file 0⟩).2
    let r := (write ⟨some d, none, false⟩ [1, 2, 3, 4, 5] 3).run
      (served (Posix.serve 0) decide.handler) (m, ())
    r.value = .ok () ∧ r.history.length = 3 ∧
      r.world.1.contentBehind d = Content.empty.overlay 3 [1, 2, 3, 4, 5] := by
  intro decide d m r
  have hvalue : r.value = .ok () := by with_unfolding_all rfl
  obtain ⟨-, hcontent, -⟩ := write_in_parts (Posix.laysOver 0 decide d)
    (j := ⟨some d, none, false⟩) rfl [1, 2, 3, 4, 5] 3 (by decide) (m, ())
  exact ⟨hvalue, by with_unfolding_all rfl, hcontent hvalue⟩

end Handle

end WriteAhead
