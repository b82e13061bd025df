/-
# Syncing a directory and asking whether it may be synced

Whether a directory may be synced can be asked for, and is found out again by what syncs it.  The
two are written apart, but from the same state they open the same directory and see the same type
of file system, so that the one does what the other allows, and fails where the other fails.

Main statements:

* `SyncPolicy.ofFileSystem_eq_notAllowed_iff_mod` : which types of file systems are remote;
* `Posix.courses_run` : how the two go, from the same state;
* `Posix.syncDirectoryFor_follows_policy` : a directory is synced exactly where it may be.
-/
import WriteAhead.Proofs.Directory
import WriteAhead.Proofs.Steps
import WriteAhead.Proofs.Trials

namespace WriteAhead

open Program

/-! ## The type of a file system -/

namespace SyncPolicy

/-- A type is remote exactly if its lower half is the number of a remote file system. -/
theorem ofFileSystem_eq_notAllowed_iff_mod (word : UInt64) :
    ofFileSystem word = .notAllowed ↔
      word.toNat % UInt32.size ∈ [0x6969, 0xFF534D42, 0x517B, 0xFE534D42] := by
  rw [ofFileSystem_eq_notAllowed_iff]
  simp only [remote, List.mem_cons, List.not_mem_nil, or_false, ← UInt32.toNat_inj,
    UInt64.toNat_toUInt32]
  rfl

/-- The lower half of a signed word is that of its bits. -/
theorem toUInt32_toUInt64 (x : Int64) : x.toUInt64.toUInt32 = x.toInt32.toUInt32 := by
  apply UInt32.toBitVec_inj.mp
  show x.toBitVec.setWidth 32 = x.toBitVec.signExtend 32
  rw [BitVec.signExtend_eq_setWidth_of_le _ (by decide)]

/-- A number is recognised alike whether it is widened without its sign or with it. -/
theorem ofFileSystem_widened (magic : UInt32) :
    ofFileSystem magic.toUInt64 = ofMagic magic ∧
      ofFileSystem magic.toInt32.toInt64.toUInt64 = ofMagic magic := by
  unfold ofFileSystem
  rw [UInt32.toUInt32_toUInt64, toUInt32_toUInt64, Int32.toInt32_toInt64, UInt32.toUInt32_toInt32]
  exact ⟨rfl, rfl⟩

end SyncPolicy

namespace Posix

variable {W : Type} (h : Handler System W) (w : W) (patience : Nat) (dir : Path)

/-! ## The parts of the two -/

/-- What cannot be opened is not used. -/
theorem run_withDirectory_of_error {α : Type}
    (use : Descriptor → SystemProgram (Except JournalError α)) {cause : SystemError}
    (hopened : ((openPath patience dir .read).run h w).value = .error cause) :
    let r := (withDirectory patience dir use).run h w
    r.value = .error (.opening dir cause) ∧
      r.history = ((openPath patience dir .read).run h w).history := by
  intro r
  unfold r withDirectory
  rw [run_bind, hopened]
  exact ⟨rfl, List.append_nil _⟩

/-- What is opened is used, and closed afterwards. -/
theorem run_withDirectory_of_ok {α : Type}
    (use : Descriptor → SystemProgram (Except JournalError α)) {d : Descriptor}
    (hopened : ((openPath patience dir .read).run h w).value = .ok d) :
    let opening := (openPath patience dir .read).run h w
    let used := (use d).run h opening.world
    let r := (withDirectory patience dir use).run h w
    r.value = used.value ∧ ∃ closed,
      r.history = opening.history ++ (used.history ++ [.answered (.close d) closed]) := by
  intro opening used r
  unfold r withDirectory
  rw [run_bind, hopened]
  show Run.value (((use d) >>= _).run h opening.world) = _ ∧ ∃ closed,
    opening.history ++ Run.history (((use d) >>= _).run h opening.world) = _
  rw [run_bind]
  exact ⟨rfl, _, rfl⟩

/-- The policy is that for the type that is reported. -/
theorem policyOf_eq (d : Descriptor) :
    policyOf d = ask (I := System) (SystemCall.fileSystem d) fun
      | .ok word => done (.ok (SyncPolicy.ofFileSystem word))
      | .error code => done (.error (.stat (.code code))) := by
  show ask _ _ = ask _ _
  congr 1
  funext reply
  cases reply <;> rfl

/-- A directory is synced if the policy for the type that is reported allows. -/
theorem syncDirectory_eq (d : Descriptor) :
    syncDirectory patience dir d = ask (I := System) (SystemCall.fileSystem d) fun
      | .ok word =>
        match SyncPolicy.ofFileSystem word with
        | .allowed => sync patience d >>= fun synced => done (synced.mapError .sync)
        | .notAllowed => Program.note (.directorySyncSkipped dir) (done (.ok ()))
      | .error code => done (.error (.stat (.code code))) := by
  unfold syncDirectory
  rw [policyOf_eq, ask_bind]
  congr 1
  funext reply
  cases reply with
  | error code => rfl
  | ok word =>
    rw [done_bind]
    dsimp only
    cases SyncPolicy.ofFileSystem word with
    | notAllowed => rfl
    | allowed =>
      dsimp only
      congr 1
      funext synced
      cases synced <;> rfl

/-- A sync is one exchange. -/
theorem exchanges_sync {φ : Type} (decide : Policy φ) (w : Machine × φ) (d : Descriptor) :
    let r := (sync patience d).run decide.handler w
    ∃ reply, r.value = ofSystem reply ∧ Exchanges [⟨.sync d, reply⟩] r.history ∧
      ∀ q ∈ r.requests, q = .sync d := by
  have hends := canEnd_run decide.within_true (sync patience d) w
  obtain ⟨reply, m₁, xs, ys, hpersist, ⟨hvalue, -, hys⟩, hhistory⟩ := ends_bind.mp hends
  rw [hys, List.append_nil] at hhistory
  obtain ⟨-, hexchange⟩ := exchanges_persist rfl hpersist
  have hcalls := (answers_of_persist (by simp) hpersist).2
  rw [← hhistory] at hexchange hcalls
  exact ⟨reply, hvalue, hexchange, hcalls⟩

/-! ## How the two go -/

/-- How asking for the policy of a directory and syncing it go, if opening it comes to `opened` with
history `xs`: the answer and the history of the one, and those of the other. -/
inductive Courses (dir : Path) (opened : Except SystemError Descriptor)
    (xs : List (Happening System Event)) :
    Except JournalError SyncPolicy → List (Happening System Event) →
      Except JournalError Unit → List (Happening System Event) → Prop where
  /-- The directory cannot be opened. -/
  | unopened {cause : SystemError} (hopened : opened = .error cause) :
    Courses dir opened xs (.error (.opening dir cause)) xs (.error (.opening dir cause)) xs
  /-- The type of its file system is not told. -/
  | untold {d : Descriptor} (hopened : opened = .ok d) (code : Int)
    (closed closed' : Except Int Unit) :
    Courses dir opened xs
      (.error (.stat (.code code)))
      (xs ++ [.answered (.fileSystem d) (.error code), .answered (.close d) closed])
      (.error (.stat (.code code)))
      (xs ++ [.answered (.fileSystem d) (.error code), .answered (.close d) closed'])
  /-- The file system is a remote one. -/
  | skipped {d : Descriptor} (hopened : opened = .ok d) {word : UInt64}
    (hword : SyncPolicy.ofFileSystem word = .notAllowed) (closed closed' : Except Int Unit) :
    Courses dir opened xs
      (.ok .notAllowed)
      (xs ++ [.answered (.fileSystem d) (.ok word), .answered (.close d) closed])
      (.ok ())
      (xs ++ [.answered (.fileSystem d) (.ok word), .noted (.directorySyncSkipped dir),
        .answered (.close d) closed'])
  /-- The directory is synced. -/
  | synced {d : Descriptor} (hopened : opened = .ok d) {word : UInt64}
    (hword : SyncPolicy.ofFileSystem word = .allowed) {reply : Except Int Unit}
    {ys : List (Happening System Event)} (hys : Exchanges [⟨.sync d, reply⟩] ys)
    (hcalls : ∀ q ∈ requestsOf ys, q = .sync d) (closed closed' : Except Int Unit) :
    Courses dir opened xs
      (.ok .allowed)
      (xs ++ [.answered (.fileSystem d) (.ok word), .answered (.close d) closed])
      ((ofSystem reply).mapError .sync)
      (xs ++ .answered (.fileSystem d) (.ok word) :: (ys ++ [.answered (.close d) closed']))

/-- From the same state, asking for the policy of a directory and syncing it go together. -/
theorem courses_run {φ : Type} (decide : Policy φ) (w : Machine × φ) :
    Courses dir ((openPath patience dir .read).run decide.handler w).value
      ((openPath patience dir .read).run decide.handler w).history
      ((withDirectory patience dir policyOf).run decide.handler w).value
      ((withDirectory patience dir policyOf).run decide.handler w).history
      ((withDirectory patience dir (syncDirectory patience dir)).run decide.handler w).value
      ((withDirectory patience dir (syncDirectory patience dir)).run decide.handler w).history := by
  cases hopened : ((openPath patience dir .read).run decide.handler w).value with
  | error cause =>
    obtain ⟨hasked, haskedHistory⟩ :=
      run_withDirectory_of_error decide.handler w patience dir policyOf hopened
    obtain ⟨hsynced, hsyncedHistory⟩ :=
      run_withDirectory_of_error decide.handler w patience dir (syncDirectory patience dir) hopened
    rw [hasked, haskedHistory, hsynced, hsyncedHistory]
    exact .unopened rfl
  | ok d =>
    obtain ⟨hasked, closed, haskedHistory⟩ :=
      run_withDirectory_of_ok decide.handler w patience dir policyOf hopened
    obtain ⟨hsynced, closed', hsyncedHistory⟩ :=
      run_withDirectory_of_ok decide.handler w patience dir (syncDirectory patience dir) hopened
    rw [hasked, haskedHistory, hsynced, hsyncedHistory, policyOf_eq, syncDirectory_eq, run_ask,
      run_ask]
    -- both are in the same state, and so they see the same reply
    generalize decide.handler (.fileSystem d) _ = answer
    obtain ⟨reply, w₁⟩ := answer
    rcases reply with code | word
    · exact .untold rfl code closed closed'
    · dsimp only
      cases hword : SyncPolicy.ofFileSystem word with
      | notAllowed => exact .skipped rfl hword closed closed'
      | allowed =>
        obtain ⟨reply, hvalue, hys, hcalls⟩ := exchanges_sync patience decide w₁ d
        dsimp only
        rw [run_bind, hvalue]
        simp only [run_done, Run.value_after, Run.history_after, List.append_nil,
          List.singleton_append]
        exact .synced rfl hword hys hcalls closed closed'

namespace Courses

variable {dir : Path} {opened : Except SystemError Descriptor}
  {xs askedHistory syncedHistory : List (Happening System Event)}
  {asked : Except JournalError SyncPolicy} {synced : Except JournalError Unit}

/-- Opening makes no other call. -/
theorem answered_notMem (hxs : ∀ q ∈ requestsOf xs, q = .open_ dir .read) {c : SystemCall}
    (hc : c ≠ .open_ dir .read) (reply : c.Reply) : .answered c reply ∉ xs :=
  fun hmem => hc (hxs c (mem_requestsOf.mpr ⟨reply, hmem⟩))

/-- Asking fails exactly if the directory cannot be opened or its file system is not told. -/
theorem asked_eq_error_iff
    (h : Courses dir opened xs asked askedHistory synced syncedHistory)
    (hxs : ∀ q ∈ requestsOf xs, q = .open_ dir .read) (e : JournalError) :
    asked = .error e ↔
      (∃ cause, opened = .error cause ∧ e = .opening dir cause) ∨
        ∃ d code, .answered (.fileSystem d) (.error code) ∈ askedHistory ∧
          e = .stat (.code code) := by
  have hnone : ∀ d code, .answered (.fileSystem d) (.error code) ∉ xs :=
    fun d code => answered_notMem hxs (by simp) _
  cases h with
  | unopened hopened => simp [hopened, hnone, eq_comm]
  | untold hopened code => simp [hopened, hnone, and_assoc, eq_comm]
  | skipped hopened hword => simp [hopened, hnone]
  | synced hopened hword => simp [hopened, hnone]

/-- Asking yields the policy for the type that is reported. -/
theorem asked_eq_ok_iff
    (h : Courses dir opened xs asked askedHistory synced syncedHistory)
    (hxs : ∀ q ∈ requestsOf xs, q = .open_ dir .read) (policy : SyncPolicy) :
    asked = .ok policy ↔
      ∃ d word, .answered (.fileSystem d) (.ok word) ∈ askedHistory ∧
        SyncPolicy.ofFileSystem word = policy := by
  have hnone : ∀ d word, .answered (.fileSystem d) (.ok word) ∉ xs :=
    fun d word => answered_notMem hxs (by simp) _
  cases h with
  | unopened hopened => simp [hnone]
  | untold hopened code => simp [hnone]
  | skipped hopened hword => simp [hnone, hword, and_assoc]
  | synced hopened hword => simp [hnone, hword, and_assoc]

/-- Syncing fails as asking does. -/
theorem synced_eq_of_asked_eq_error
    (h : Courses dir opened xs asked askedHistory synced syncedHistory) {e : JournalError}
    (he : asked = .error e) : synced = .error e := by
  cases h with
  | unopened | untold => exact congrArg Except.error (Except.error.inj he)
  | skipped | synced => exact absurd he (by simp)

/-- Where it is not allowed, not to sync is to succeed. -/
theorem synced_eq_of_asked_eq_notAllowed
    (h : Courses dir opened xs asked askedHistory synced syncedHistory)
    (hno : asked = .ok .notAllowed) : synced = .ok () := by
  cases h with
  | skipped => rfl
  | unopened | untold | synced => exact absurd hno (by simp)

/-- Something is synced exactly where it is allowed. -/
theorem exists_sync_iff
    (h : Courses dir opened xs asked askedHistory synced syncedHistory)
    (hxs : ∀ q ∈ requestsOf xs, q = .open_ dir .read) :
    (∃ d, .sync d ∈ requestsOf syncedHistory) ↔ asked = .ok .allowed := by
  have hnone : ∀ d, .sync d ∉ requestsOf xs := fun d hd => absurd (hxs _ hd) (by simp)
  cases h with
  | unopened | untold | skipped => simp [hnone]
  | @synced d hopened word hword reply ys hys hcalls =>
    have hsync : .sync d ∈ requestsOf ys :=
      mem_requestsOf.mpr ⟨reply, hys.answered_of_mem (x := ⟨.sync d, reply⟩) (by simp)⟩
    simp only [iff_true]
    exact ⟨d, by simp [hsync]⟩

/-- What is synced is what was opened, and what comes of it is the result. -/
theorem of_sync_mem
    (h : Courses dir opened xs asked askedHistory synced syncedHistory)
    (hxs : ∀ q ∈ requestsOf xs, q = .open_ dir .read) {d : Descriptor}
    (hd : .sync d ∈ requestsOf syncedHistory) :
    opened = .ok d ∧ ∃ reply, .answered (.sync d) reply ∈ syncedHistory ∧
      (∀ r, .answered (.sync d) r ∈ syncedHistory → r = reply ∨ r = .error Errno.interrupted) ∧
      synced = (ofSystem reply).mapError .sync := by
  have hnone : ∀ d, .sync d ∉ requestsOf xs := fun d hd => absurd (hxs _ hd) (by simp)
  cases h with
  | unopened | untold | skipped => exact absurd hd (by simp [hnone])
  | @synced d' hopened word hword reply ys hys hcalls =>
    obtain rfl : d = d' := by
      have hmem : .sync d ∈ requestsOf ys := by simpa [hnone] using hd
      exact SystemCall.sync.inj (hcalls _ hmem)
    have hanswered := hys.answered_of_mem (x := ⟨.sync d, reply⟩) (by simp)
    refine ⟨hopened, reply, by simp [hanswered], fun r hr => ?_, rfl⟩
    have hmem : .answered (.sync d) r ∈ ys := by
      have hnot := answered_notMem hxs (c := .sync d) (by simp) r
      simpa [hnot] using hr
    by_cases hinterrupted : r = .error Errno.interrupted
    · exact .inr hinterrupted
    · have hlast := hys.mem_of_answered hinterrupted hmem
      obtain rfl : r = reply := by simpa using hlast
      exact .inl rfl

end Courses

/-! ## Where a directory is synced -/

/-- **A directory is synced exactly where the policy for it, asked for in the same state, allows.**
What is synced is then what the directory's path leads to, and the result is what comes of it; where
the policy does not allow, syncing succeeds without doing anything; and where asking fails, because
the directory cannot be opened or the type of its file system is not told, syncing fails in the same
way.  The policy does not allow exactly the types whose lower half is the number of a remote file
system, so that it makes no difference how such a number is widened. -/
theorem syncDirectoryFor_follows_policy {φ : Type} (patience : Nat) (decide : Policy φ)
    (m : Machine) (s : φ) (p : Path) :
    let opening := (openPath patience p.directory .read).run decide.handler (m, s)
    let asked := (syncAllowed patience p.directory).run decide.handler (m, s)
    let synced := (syncDirectoryFor patience p).run decide.handler (m, s)
    ((∃ d, .sync d ∈ synced.requests) ↔ asked.value = .ok .allowed) ∧
    (∀ d, .sync d ∈ synced.requests →
      (opening.value = .ok d ∧
        ∃ target, m.tree.openExisting m.workingDirectory p.directory = .ok target ∧
          opening.world.1.opened d.number = some ⟨false, target⟩ ∧
          ∀ id, m.tree.openExisting m.workingDirectory p = .ok (.file id) →
            target = .directory) ∧
      ∃ reply, .answered (.sync d) reply ∈ synced.history ∧
        (∀ r, .answered (.sync d) r ∈ synced.history →
          r = reply ∨ r = .error Errno.interrupted) ∧
        synced.value = (ofSystem reply).mapError .sync) ∧
    (asked.value = .ok .notAllowed →
      synced.value = .ok () ∧ ∀ d, .sync d ∉ synced.requests) ∧
    (∀ e, asked.value = .error e → synced.value = .error e) ∧
    (∀ e, asked.value = .error e ↔
      (∃ cause, opening.value = .error cause ∧ e = .opening p.directory cause) ∨
        ∃ d code, .answered (.fileSystem d) (.error code) ∈ asked.history ∧
          e = .stat (.code code)) ∧
    (∀ policy, asked.value = .ok policy ↔
      ∃ d word, .answered (.fileSystem d) (.ok word) ∈ asked.history ∧
        SyncPolicy.ofFileSystem word = policy) ∧
    (∀ word : UInt64, SyncPolicy.ofFileSystem word = .notAllowed ↔
      word.toNat % UInt32.size ∈ [0x6969, 0xFF534D42, 0x517B, 0xFE534D42]) ∧
    ∀ magic : UInt32, SyncPolicy.ofFileSystem magic.toUInt64 =
      SyncPolicy.ofFileSystem magic.toInt32.toInt64.toUInt64 := by
  intro opening asked synced
  have hcourses : Courses p.directory opening.value opening.history asked.value asked.history
      synced.value synced.history := courses_run patience p.directory decide (m, s)
  have hends := canEnd_run decide.within_true (openPath patience p.directory .read) (m, s)
  have hopening : ∀ q ∈ requestsOf opening.history, q = .open_ p.directory .read :=
    (ends_openPath hends).1
  have hiff := hcourses.exists_sync_iff hopening
  refine ⟨hiff, fun d hd => ⟨?_, (hcourses.of_sync_mem hopening hd).2⟩, fun hno => ⟨?_, ?_⟩,
    fun e => hcourses.synced_eq_of_asked_eq_error, hcourses.asked_eq_error_iff hopening,
    hcourses.asked_eq_ok_iff hopening, SyncPolicy.ofFileSystem_eq_notAllowed_iff_mod, ?_⟩
  · have hopened : opening.value = .ok d := (hcourses.of_sync_mem hopening hd).1
    refine ⟨hopened, ?_⟩
    rcases ends_openRead hends with ⟨target, htarget, hvalue, hworld⟩ | ⟨-, ⟨e, hvalue⟩, -⟩
    · obtain rfl : d = ⟨m.nextNumber, p.directory⟩ := Except.ok.inj (hopened.symm.trans hvalue)
      refine ⟨target, htarget, ?_, fun id hid => ?_⟩
      · show (opening.world.1).opened m.nextNumber = _
        rw [hworld]
        simp [Machine.openTarget]
      · exact Except.ok.inj (htarget.symm.trans (FileTree.openExisting_directory hid))
    · exact absurd (hopened.symm.trans hvalue) (by simp)
  · exact hcourses.synced_eq_of_asked_eq_notAllowed hno
  · intro d hd
    have hallowed := hiff.mp ⟨d, hd⟩
    rw [hno] at hallowed
    exact absurd hallowed (by simp)
  · intro magic
    obtain ⟨hzero, hsign⟩ := SyncPolicy.ofFileSystem_widened magic
    rw [hzero, hsign]

end Posix

end WriteAhead
