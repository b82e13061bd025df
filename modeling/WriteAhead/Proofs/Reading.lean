/-
# Reading in parts

A platform may yield fewer bytes than it is asked for, so a read is a row of calls.  The parts come
to lie one behind the other in the buffer, and however they are split they amount to all that the
file has of the range, unless a call fails.

Main statements:

* `Handle.read_in_parts` : a read of which no call fails yields all there is of its range, and one
  that fails has filled a first part of the buffer rightly;
* `Posix.readsFrom` : a POSIX machine is such a platform, if each of its transfers moves something.
-/
import WriteAhead.Proofs.Benign
import WriteAhead.Proofs.Uses

namespace WriteAhead

open Program

variable {W : Type}

namespace Content

/-- A stretch is as long as it says. -/
theorem slice_length_slice (c : Content) (start count : Nat) :
    c.slice start (c.slice start count).length = c.slice start count := by
  have hmin : min (min count (c.length - start)) (c.length - start) =
      min count (c.length - start) := by
    omega
  rw [length_slice]
  unfold slice
  rw [hmin]

/-- A stretch and the one right behind it are one stretch. -/
theorem slice_add (c : Content) (start n k : Nat) :
    c.slice start (n + k) = c.slice start n ++ c.slice (start + n) k := by
  rw [slice_eq, slice_eq, slice_eq, List.take_add, List.drop_drop]

end Content

/-! ## Platforms that yield first parts -/

/-- What is read by way of `d` comes from `content`: a call yields a first part of what there is of
the range, which is empty only at the end or where nothing was asked for, or it fails.  Neither
changes the content. -/
def ReadsFrom (h : Handler Steps W) (content : W → Content) (d : Descriptor) : Prop :=
  ∀ (count : Nat) (position : UInt64) (w : W),
    let answer := h (.readAt d count position) w
    content answer.2 = content w ∧
      ((∃ n ≤ min count ((content w).length - position.toNat),
          answer.1 = .ok ⟨n, (content w).slice position.toNat n⟩ ∧
            (n = 0 → count = 0 ∨ (content w).length ≤ position.toNat)) ∨
        ∃ e, answer.1 = .error e)

/-- The error of a happening, if it is a read that failed. -/
def readFailure? : Happening Steps Event → Option SystemError
  | .answered (.readAt _ _ _) (.error e) => some e
  | _ => none

/-- The errors of the reads that failed in a history, in order. -/
def readFailures (history : List (Happening Steps Event)) : List SystemError :=
  history.filterMap readFailure?

theorem readFailures_ok (d : Descriptor) (count : Nat) (position : UInt64) (t : Transfer)
    (history : List (Happening Steps Event)) :
    readFailures (.answered (.readAt d count position) (.ok t) :: history) =
      readFailures history := rfl

/-! ## POSIX machines -/

/-- A transfer that reads moves something, if there is anything to be moved. -/
def MovesOnRead : SystemCall → Verdict → Prop
  | .readAt _ _ _, .atMost n => 0 < n
  | _, _ => True

theorem MovesOnRead.limit_ne_zero {d : Descriptor} {count : Nat} {offset : UInt64} {v : Verdict}
    (hv : MovesOnRead (.readAt d count offset) v) (hcount : count ≠ 0) : v.limit count ≠ 0 := by
  cases v with
  | atMost n =>
    have hn : 0 < n := hv
    have hlimit : (Verdict.atMost n).limit count = min n count := rfl
    omega
  | _ => exact hcount

/-- The content that is read by way of a descriptor: that of the file it has open for reading, if
there is one. -/
def Machine.contentRead (m : Machine) (d : Descriptor) : Content :=
  match m.opened d.number with
  | some ⟨false, .file id⟩ => m.tree.content id
  | _ => Content.empty

theorem Machine.contentRead_of_opened {m : Machine} {d : Descriptor} {id : FileId}
    (hopen : m.opened d.number = some ⟨false, .file id⟩) :
    m.contentRead d = m.tree.content id := by
  unfold contentRead
  rw [hopen]

/-- A machine yields the bytes of the file that is open for reading, or refuses them. -/
theorem Machine.readAt_cases (m : Machine) (d : Descriptor) (count : Nat) (offset : UInt64) :
    m.readAt d count offset = .ok ((m.contentRead d).slice offset.toNat count) ∨
      ∃ code, m.readAt d count offset = .error code := by
  unfold readAt
  split
  · exact .inr ⟨_, rfl⟩
  · split
    · next target hopen =>
      split
      · exact .inr ⟨_, rfl⟩
      · cases target with
        | directory => exact .inr ⟨_, rfl⟩
        | file id =>
          rw [contentRead_of_opened hopen]
          exact .inl rfl
    · exact .inr ⟨_, rfl⟩

/-- A read that is let move something yields a first part of what there is, which is empty only at
the end or where nothing was asked for, or it fails. -/
theorem Machine.Answers.contentRead {m m' : Machine} {d : Descriptor} {count : Nat}
    {offset : UInt64} {r : Except Int Bytes}
    (h : m.Answers MovesOnRead (.readAt d count offset) r m') :
    m' = m ∧
      ((∃ n ≤ min count ((m.contentRead d).length - offset.toNat),
          r = .ok ((m.contentRead d).slice offset.toNat n) ∧
            (n = 0 → count = 0 ∨ (m.contentRead d).length ≤ offset.toNat)) ∨
        ∃ code, r = .error code) := by
  refine ⟨h.of_isQuery rfl, ?_⟩
  rcases h.cases with ⟨code, -, hfailed, -⟩ | ⟨v, hv, hperform⟩
  · exact .inr ⟨code, hfailed⟩
  · have hread : m.readAt d (v.limit count) offset = r := (Prod.mk.inj hperform).1
    have hlimit : v.limit count ≤ count := v.limit_le count
    rcases m.readAt_cases d (v.limit count) offset with hgot | ⟨code, hrefused⟩
    · refine .inl ⟨((m.contentRead d).slice offset.toNat (v.limit count)).length, ?_, ?_, ?_⟩
      · rw [Content.length_slice]
        omega
      · rw [Content.slice_length_slice, ← hread, hgot]
      · intro hzero
        -- nothing was read, although something could have been moved
        by_cases hcount : count = 0
        · exact .inl hcount
        · have hlimit_ne : v.limit count ≠ 0 := hv.limit_ne_zero hcount
          rw [Content.length_slice] at hzero
          right
          omega
    · exact .inr ⟨code, hread.symm.trans hrefused⟩

/-- A POSIX machine yields first parts of what there is, if its policy lets each transfer move
something. -/
theorem Posix.readsFrom {φ : Type} (patience : Nat) {decide : Policy φ}
    (hmoves : decide.Within MovesOnRead) (d : Descriptor) :
    ReadsFrom (served (serve patience) decide.handler) (fun w => w.1.contentRead d) d := by
  intro count position w
  obtain ⟨a, m₁, xs, ys, ha, hr, -⟩ := ends_bind.mp
    (canEnd_run hmoves (readAt d count position) w)
  obtain ⟨reply, hreply, rfl, -⟩ := canEnd_once.mp ha
  obtain ⟨hsame, ⟨n, hn, rfl, hend⟩ | ⟨code, rfl⟩⟩ := hreply.contentRead
  · obtain ⟨hanswer, hworld, -⟩ := hr
    have hlength : ((w.1.contentRead d).slice position.toNat n).length = n := by
      rw [Content.length_slice]
      omega
    rw [hlength] at hanswer
    exact ⟨congrArg (Machine.contentRead · d) (hworld.trans hsame), .inl ⟨n, hn, hanswer, hend⟩⟩
  · obtain ⟨hanswer, hworld, -⟩ := hr
    exact ⟨congrArg (Machine.contentRead · d) (hworld.trans hsame), .inr ⟨_, hanswer⟩⟩

namespace Handle

/-! ## The loop -/

variable {h : Handler Steps W} {content : W → Content} {d : Descriptor}

/-- The rest of a read puts a first part of what there is behind what is in the buffer.  It gets
all of it unless a call fails, and then it reports that call's error. -/
theorem readRest_in_parts (hreads : ReadsFrom h content d) (offset : UInt64) (filled : Nat)
    (buffer : Bytes) (left : Nat) (hbuffer : filled + left = buffer.length)
    (hrange : offset.toNat + filled + left < wordLimit) (w : W) :
    let r := (readRest d offset filled buffer left).run h w
    let available := min left ((content w).length - (offset.toNat + filled))
    content r.world = content w ∧ r.history.length ≤ left ∧
      ∃ k ≤ available,
        r.value.buffer = place buffer filled ((content w).slice (offset.toNat + filled) k) ∧
        ((readFailures r.history = [] ∧ k = available ∧ r.value.outcome = .ok (filled + k)) ∨
          ∃ e, readFailures r.history = [e] ∧
            r.value.outcome = .error (.error (.read offset buffer.length e))) := by
  fun_induction readRest d offset filled buffer left generalizing w with
  | case1 filled buffer =>
    have hnone : (content w).slice (offset.toNat + filled) 0 = [] := by
      simp [Content.slice]
    refine ⟨rfl, Nat.le_refl 0, 0, Nat.zero_le _, ?_, .inl ⟨rfl, ?_, rfl⟩⟩
    · rw [hnone, place_nil]
      rfl
    · rw [Nat.zero_min]
  | case2 filled buffer left p hpanic =>
    rw [(addWords?_eq_ok_iff (c := offset.toNat + filled)).mpr ⟨rfl, by omega⟩] at hpanic
    exact absurd hpanic (by simp)
  | case3 filled buffer left position hposition ih =>
    obtain ⟨rfl, hword⟩ := addWords?_eq_ok_iff.mp hposition
    have hposition : (UInt64.ofNat (offset.toNat + filled)).toNat = offset.toNat + filled :=
      UInt64.toNat_ofNat_of_lt hword
    obtain ⟨hsame, hgot⟩ := hreads (left + 1) (UInt64.ofNat (offset.toNat + filled)) w
    rw [hposition] at hgot
    rw [run_ask]
    generalize h (.readAt d (left + 1) (UInt64.ofNat (offset.toNat + filled))) w = answer
      at hsame hgot ⊢
    obtain ⟨reply, w₁⟩ := answer
    have hkept : content w₁ = content w := hsame
    rcases hgot with ⟨n, hn, hreply, hend⟩ | ⟨e, hreply⟩
    · obtain rfl : reply = .ok ⟨n, (content w).slice (offset.toNat + filled) n⟩ := hreply
      have hlength : ((content w).slice (offset.toNat + filled) n).length = n := by
        rw [Content.length_slice]
        omega
      by_cases hzero : n = 0
      · -- a call that yields nothing is at the end of the file
        subst hzero
        have hover : (content w).length ≤ offset.toNat + filled := by
          rcases hend rfl with hnone | hover
          · omega
          · exact hover
        simp only [if_true, run_done]
        refine ⟨hkept, by simp [Run.after], 0, Nat.zero_le _, rfl, .inl ⟨rfl, ?_, rfl⟩⟩
        omega
      · have hsum : addWords? filled n = .ok (filled + n) :=
          addWords?_eq_ok_iff.mpr ⟨rfl, by omega⟩
        have hfits : filled + ((content w).slice (offset.toNat + filled) n).length ≤
            buffer.length := by
          omega
        have hplaced : (place buffer filled
            ((content w).slice (offset.toNat + filled) n)).length = buffer.length :=
          length_place hfits
        have hbuffer' : filled + n + (left + 1 - n) = (place buffer filled
            ((content w).slice (offset.toNat + filled) n)).length := by
          omega
        have hrange' : offset.toNat + (filled + n) + (left + 1 - n) < wordLimit := by
          omega
        have hrest := ih ⟨n, (content w).slice (offset.toNat + filled) n⟩ hzero (filled + n)
          hbuffer' hrange' w₁
        dsimp only at hrest
        obtain ⟨hcontent, hcalls, k, hk, hfilled, hcame⟩ := hrest
        rw [hkept, ← Nat.add_assoc] at hk hfilled hcame
        rw [hkept] at hcontent
        simp only [if_neg hzero, hsum, Run.value_after, Run.world_after, Run.history_after,
          List.singleton_append, List.length_cons, readFailures_ok]
        refine ⟨hcontent, by omega, n + k, by omega, ?_, ?_⟩
        · -- what the other calls yield comes right behind what this one did
          have hwithin : filled + ((content w).slice (offset.toNat + filled) n).length +
              ((content w).slice (offset.toNat + filled + n) k).length ≤ buffer.length := by
            rw [hlength, Content.length_slice]
            omega
          have hjoin := place_place hwithin
          rw [hlength] at hjoin
          rw [hfilled, hjoin, ← Content.slice_add]
        · rcases hcame with ⟨hnone, hall, hvalue⟩ | ⟨e, hone, hvalue⟩
          · refine .inl ⟨hnone, by omega, ?_⟩
            rw [hvalue, Nat.add_assoc]
          · refine .inr ⟨e, hone, ?_⟩
            rw [hvalue, hplaced]
    · obtain rfl : reply = .error e := hreply
      have hnone : (content w).slice (offset.toNat + filled) 0 = [] := by
        simp [Content.slice]
      refine ⟨hkept, by simp [Run.after], 0, Nat.zero_le _, ?_, .inr ⟨e, rfl, rfl⟩⟩
      rw [hnone, place_nil]
      rfl

/-- **A read yields all that the file has of its range, in whatever parts it comes.**  If no call
fails, the result is the smaller one of the buffer's length and of what there is from the offset on,
so many bytes of the file are at the front of the buffer, and the rest of the buffer is what it was.
If a call fails, the error is that of this call and names the whole range, and what was overwritten
is a first part of the buffer, which holds the file's bytes.  The read asks for nothing but reads,
no more often than there are bytes in the buffer, and the file stays as it is. -/
theorem read_in_parts (hreads : ReadsFrom h content d) {j : Handle} (hd : j.descriptor = some d)
    (buffer : Bytes) (offset : UInt64) (hrange : offset.toNat + buffer.length < wordLimit) (w : W) :
    let r := (j.read buffer offset).run h w
    let available := min buffer.length ((content w).length - offset.toNat)
    (readFailures r.history = [] →
      r.value = ⟨.ok available,
        (content w).slice offset.toNat available ++ buffer.drop available⟩) ∧
    (∀ e ∈ readFailures r.history,
      readFailures r.history = [e] ∧
        r.value.outcome = .error (.error (.read offset buffer.length e)) ∧
        ∃ k ≤ available,
          r.value.buffer = (content w).slice offset.toNat k ++ buffer.drop k) ∧
    content r.world = content w ∧
    r.history.length ≤ buffer.length ∧
    ∀ q ∈ r.requests, ∃ count position, q = .readAt d count position := by
  have hread : j.read buffer offset = readRest d offset 0 buffer buffer.length := by
    unfold read
    rw [hd]
  intro r available
  obtain ⟨hcontent, hcalls, k, hk, hfilled, hcame⟩ :=
    readRest_in_parts hreads offset 0 buffer buffer.length (Nat.zero_add _) hrange w
  have hasks := (asks_readRest d offset 0 buffer buffer.length
    (Q := fun q => ∃ count position, q = .readAt d count position)
    fun count position => ⟨count, position, rfl⟩).requests h w
  rw [← hread] at hcontent hcalls hfilled hcame hasks
  rw [Nat.add_zero] at hk hfilled hcame
  have hlength : ((content w).slice offset.toNat k).length = k := by
    rw [Content.length_slice]
    omega
  have hfront : r.value.buffer = (content w).slice offset.toNat k ++ buffer.drop k := by
    rw [hfilled, place_eq (by omega), List.take_zero, List.nil_append, Nat.zero_add, hlength]
  refine ⟨fun hnone => ?_, fun e he => ?_, hcontent, hcalls, hasks⟩
  · rcases hcame with ⟨-, hall, hvalue⟩ | ⟨e, hone, -⟩
    · have hk' : k = available := hall
      rw [Nat.zero_add] at hvalue
      calc r.value = ⟨r.value.outcome, r.value.buffer⟩ := rfl
        _ = ⟨.ok available, (content w).slice offset.toNat available ++ buffer.drop available⟩ := by
          rw [hfront, hvalue, hk']
    · rw [hnone] at hone
      exact absurd hone (by simp)
  · rcases hcame with ⟨hnone, -, -⟩ | ⟨e', hone, hvalue⟩
    · rw [hnone] at he
      exact absurd he (by simp)
    · rw [hone] at he
      obtain rfl : e = e' := List.mem_singleton.mp he
      exact ⟨hone, hvalue, k, hk, hfront⟩

/-- Eight bytes are asked for where there are four, of a machine that moves two at a time. -/
theorem read_in_parts_two_at_a_time :
    let decide : Policy Unit := fun _ s => (.atMost 2, s)
    let d : Descriptor := ⟨0, ⟨[106]⟩⟩
    let m := (((Machine.ofTree FileTree.empty []).setContent 0
      (Content.ofBytes [1, 2, 3, 4, 5])).openTarget d.path ⟨false, .file 0⟩).2
    let r := (read ⟨some d, none, false⟩ (List.replicate 8 9) 1).run
      (served (Posix.serve 0) decide.handler) (m, ())
    r.history.length = 3 ∧ r.value = ⟨.ok 4, [2, 3, 4, 5, 9, 9, 9, 9]⟩ := by
  intro decide d m r
  have hmoves : decide.Within MovesOnRead := by
    intro c s
    cases c with
    | readAt => exact Nat.two_pos
    | _ => trivial
  have hnone : readFailures r.history = [] := by decide +kernel
  obtain ⟨hvalue, -⟩ := read_in_parts (Posix.readsFrom 0 hmoves d) (j := ⟨some d, none, false⟩) rfl
    (List.replicate 8 9) 1 (by decide) (m, ())
  have hread : r.value = ⟨.ok 4, (Content.ofBytes [1, 2, 3, 4, 5]).slice 1 4 ++ [9, 9, 9, 9]⟩ :=
    hvalue hnone
  exact ⟨by decide +kernel, hread⟩

end Handle

end WriteAhead
