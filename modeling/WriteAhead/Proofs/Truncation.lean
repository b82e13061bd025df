/-
# Durable truncation

A truncation flushes the file, gives it its length, flushes it again, and syncs the directory of a
handle that has a path.  On the native platform this is one sequence of calls, which the first
failure ends, and a failure leaves behind what the calls before it did.

* `stops_resize`, `stops_syncDirectoryFor` : the calls of the two steps that make several;
* `Handle.truncate_stops` : the calls, the outcome and the file after a truncation, however many
  calls fail.
-/
import WriteAhead.Journal.Transfer
import WriteAhead.Proofs.Growth
import WriteAhead.Proofs.Trials

namespace WriteAhead

open Program

namespace Posix

/-! ## The calls of a flush and of a resize -/

/-- Forcing a file to stable storage. -/
def flushing (d : Descriptor) (flushed : Except Int Unit) : Trial :=
  .of (.sync d) flushed (some ∘ .sync)

/-- Reserving space, which a file system need not be able to do. -/
def reservation (d : Descriptor) (size : UInt64) (allocated : Except Int Unit) : Trial :=
  .of (.allocate d size) allocated fun e =>
    if e.isUnsupported then none else some (.resize size e)

/-- Space is reserved only for a file that is reported to be shorter. -/
def reserving (d : Descriptor) (size : UInt64) (length : Except Int Nat)
    (allocated : Except Int Unit) : List Trial :=
  match length with
  | .ok n => if n < size.toNat then [reservation d size allocated] else []
  | .error _ => []

/-- Setting the length of a file, which has to fit a signed word. -/
def pinning (d : Descriptor) (size : UInt64) (set : Except Int Unit) : Trial :=
  if 0x8000000000000000 ≤ size.toNat then .refused (.resize size .lengthTooLarge)
  else .of (.setLength d size) set (some ∘ .resize size)

/-- Giving a file a length. -/
def resizing (d : Descriptor) (size : UInt64) (length : Except Int Nat)
    (allocated set : Except Int Unit) : List Trial :=
  [.of (.length d) length (some ∘ .resize size)] ++
    (reserving d size length allocated ++ [pinning d size set])

/-! ## What they leave of the file -/

/-- The length was set. -/
def WasSet (d : Descriptor) (size : UInt64) (history : List (Happening System Event)) : Prop :=
  .answered (.setLength d size) (.ok ()) ∈ history

/-- Space was reserved. -/
def WasReserved (d : Descriptor) (size : UInt64) (history : List (Happening System Event)) : Prop :=
  .answered (.allocate d size) (.ok ()) ∈ history

/-- What the calls of a resize leave of a machine: the file has the length once that was set, is
extended while space was only reserved for it, and is untouched until then. -/
structure Resizes (d : Descriptor) (size : UInt64) (m m' : Machine)
    (history : List (Happening System Event)) : Prop where
  set : WasSet d size history → ∃ id, m.opened d.number = some ⟨true, .file id⟩ ∧
    m' = m.setContent id ((m.tree.content id).setLength size.toNat)
  reserved : ¬ WasSet d size history → WasReserved d size history →
    ∃ id k, m.opened d.number = some ⟨true, .file id⟩ ∧ size.toNat ≤ k ∧
      m' = m.setContent id ((m.tree.content id).extendTo k)
  untouched : ¬ WasSet d size history → ¬ WasReserved d size history → m' = m

variable {P : SystemCall → Verdict → Prop} {m m' m₁ : Machine}
  {history xs ys : List (Happening System Event)} {d : Descriptor} {size : UInt64}
  {patience : Nat}

/-- Neither was the length set nor space reserved. -/
def Quiet (d : Descriptor) (size : UInt64) (history : List (Happening System Event)) : Prop :=
  ¬ WasSet d size history ∧ ¬ WasReserved d size history

theorem Quiet.of_exchanges {exchanges : List Exchange} (h : Exchanges exchanges history)
    (hset : (⟨.setLength d size, .ok ()⟩ : Exchange) ∉ exchanges)
    (hreserved : (⟨.allocate d size, .ok ()⟩ : Exchange) ∉ exchanges) : Quiet d size history :=
  ⟨fun hmem => hset (h.mem_of_answered (by simp) hmem),
    fun hmem => hreserved (h.mem_of_answered (by simp) hmem)⟩

theorem Quiet.of_changesLength {exchanges : List Exchange} (h : Exchanges exchanges history)
    (hcalls : ∀ x ∈ exchanges, changesLength x.call = false) : Quiet d size history :=
  .of_exchanges h (fun hmem => absurd (hcalls _ hmem) (by simp [changesLength]))
    fun hmem => absurd (hcalls _ hmem) (by simp [changesLength])

theorem Quiet.nil : Quiet d size [] := ⟨by simp [WasSet], by simp [WasReserved]⟩

theorem Quiet.noted (e : Event) : Quiet d size [.noted e] :=
  ⟨by simp [WasSet], by simp [WasReserved]⟩

theorem Quiet.append (hxs : Quiet d size xs) (hys : Quiet d size ys) : Quiet d size (xs ++ ys) :=
  ⟨fun hmem => (List.mem_append.mp hmem).elim hxs.1 hys.1,
    fun hmem => (List.mem_append.mp hmem).elim hxs.2 hys.2⟩

namespace Resizes

theorem of_quiet (h : Quiet d size history) : Resizes d size m m history :=
  ⟨fun hset => absurd hset h.1, fun _ hreserved => absurd hreserved h.2, fun _ _ => rfl⟩

/-- Calls before and after that change no length add nothing. -/
theorem around (hxs : Quiet d size xs) (h : Resizes d size m m' history)
    (hys : Quiet d size ys) : Resizes d size m m' (xs ++ history ++ ys) := by
  have hset : WasSet d size (xs ++ history ++ ys) ↔ WasSet d size history := by
    simp only [WasSet, List.mem_append]
    exact ⟨fun hmem => (hmem.resolve_right hys.1).resolve_left hxs.1, fun hmem => .inl (.inr hmem)⟩
  have hreserved : WasReserved d size (xs ++ history ++ ys) ↔ WasReserved d size history := by
    simp only [WasReserved, List.mem_append]
    exact ⟨fun hmem => (hmem.resolve_right hys.2).resolve_left hxs.2, fun hmem => .inl (.inr hmem)⟩
  refine ⟨?_, ?_, ?_⟩
  · rw [hset]
    exact h.set
  · rw [hset, hreserved]
    exact h.reserved
  · rw [hset, hreserved]
    exact h.untouched

end Resizes

/-! ## Making these calls -/

theorem stops_flush {r : Except JournalError Unit}
    (h : CanEnd P (serve patience (.flush d)) m r m' history) :
    m' = m ∧ Quiet d size history ∧ ∃ flushed, Stops [flushing d flushed] r history := by
  obtain ⟨a, m₁, xs, ys, ha, hr, rfl⟩ := ends_bind.mp h
  obtain ⟨reply, m₂, us, vs, hb, ⟨rfl, rfl, rfl⟩, rfl⟩ := ends_bind.mp ha
  obtain ⟨hreply, hexchanges⟩ := exchanges_persist rfl hb
  obtain rfl := hreply.of_isQuery rfl
  have hquiet : Quiet d size us := .of_exchanges hexchanges (by simp) (by simp)
  simp only [List.append_nil]
  cases reply with
  | ok u =>
    obtain ⟨rfl, hm, rfl⟩ := hr
    simp only [List.append_nil]
    exact ⟨hm, hquiet, _, .of_ok hexchanges _⟩
  | error code =>
    obtain ⟨rfl, hm, rfl⟩ := hr
    simp only [List.append_nil]
    exact ⟨hm, hquiet, _, .of_error hexchanges rfl⟩

/-- The length is set by the one call that may do so, or the file is left alone. -/
theorem stops_pin {r : Except JournalError Unit}
    (h : CanEnd P ((resizer patience d).pin size) m r m' history) :
    ∃ set, Stops [pinning d size set] r history ∧ ¬ WasReserved d size history ∧
      Resizes d size m m' history := by
  obtain ⟨a, m₁, xs, ys, ha, hr, rfl⟩ := ends_bind.mp h
  simp only [resizer, setLength] at ha
  split at ha
  · next hsize =>
    obtain ⟨rfl, rfl, rfl⟩ := ha
    obtain ⟨rfl, rfl, rfl⟩ := hr
    refine ⟨.ok (), ?_, Quiet.nil.2, .of_quiet .nil⟩
    rw [pinning, if_pos hsize]
    exact .refused _
  · next hsize =>
    obtain ⟨reply, m₂, us, vs, hb, ⟨rfl, rfl, rfl⟩, rfl⟩ := ends_bind.mp ha
    obtain ⟨hreply, hexchanges⟩ := exchanges_persist rfl hb
    refine ⟨reply, ?_⟩
    rw [pinning, if_neg hsize]
    cases reply with
    | ok u =>
      obtain ⟨rfl, rfl, rfl⟩ := hr
      simp only [List.append_nil]
      have hset : WasSet d size us := hexchanges.answered_of_mem (List.mem_singleton.mpr rfl)
      have hreserved : ¬ WasReserved d size us := fun hmem =>
        absurd (hexchanges.mem_of_answered (by simp) hmem) (by simp)
      exact ⟨.of_ok hexchanges _, hreserved,
        fun _ => hreply.setLength_ok, fun hnot => absurd hset hnot, fun hnot => absurd hset hnot⟩
    | error code =>
      obtain ⟨rfl, rfl, rfl⟩ := hr
      simp only [List.append_nil]
      obtain rfl := hreply.of_error (by simp)
      have hquiet : Quiet d size us := .of_exchanges hexchanges (by simp) (by simp)
      exact ⟨.of_error hexchanges rfl, hquiet.2, .of_quiet hquiet⟩

/-- What was reserved beyond the length is taken back when the length is set. -/
theorem Resizes.of_reserved {id : FileId} {k : Nat} (hreserved : WasReserved d size xs)
    (hset : ¬ WasSet d size xs) (hopen : m.opened d.number = some ⟨true, .file id⟩)
    (hk : size.toNat ≤ k)
    (h : Resizes d size (m.setContent id ((m.tree.content id).extendTo k)) m' ys)
    (hys : ¬ WasReserved d size ys) : Resizes d size m m' (xs ++ ys) := by
  have hmem : WasSet d size (xs ++ ys) ↔ WasSet d size ys := by
    simp only [WasSet, List.mem_append]
    exact ⟨fun hmem => hmem.resolve_left hset, .inr⟩
  refine ⟨fun h' => ?_, fun h' _ => ?_,
    fun _ hnot => absurd (List.mem_append_left ys hreserved) hnot⟩
  · obtain ⟨id', hopen', rfl⟩ := h.set (hmem.mp h')
    obtain rfl : id = id' := by simpa using hopen.symm.trans hopen'
    refine ⟨id, hopen, ?_⟩
    rw [Machine.setContent_setContent, Machine.tree_setContent, Machine.content_setContent_self,
      Content.setLength_extendTo]
  · exact ⟨id, k, hopen, hk, h.untouched (fun hys => h' (hmem.mpr hys)) hys⟩

/-- A file that has to grow has space reserved first, unless the file system cannot. -/
theorem stops_growTo {r : Except JournalError Unit}
    (h : CanEnd P ((resizer patience d).growTo size) m r m' history) :
    ∃ allocated set, Resizes d size m m' history ∧
      Stops ([reservation d size allocated] ++ [pinning d size set]) r history := by
  obtain ⟨a, m₁, xs, ys, ha, hr, rfl⟩ := ends_bind.mp h
  obtain ⟨reply, hreply, rfl, hexchanges⟩ := exchanges_once ha
  cases reply with
  | ok u =>
    obtain ⟨id, k, hopen, hk, rfl⟩ := hreply.allocate_ok
    obtain ⟨set, hstops, hunreserved, hresizes⟩ := stops_pin hr
    have hreserved : WasReserved d size xs :=
      hexchanges.answered_of_mem (List.mem_singleton.mpr rfl)
    have hset : ¬ WasSet d size xs := fun hmem =>
      absurd (hexchanges.mem_of_answered (by simp) hmem) (by simp)
    exact ⟨.ok u, set, hresizes.of_reserved hreserved hset hopen hk hunreserved,
      (Stops.of_ok hexchanges _).go hstops⟩
  | error code =>
    obtain rfl := hreply.of_error (by simp)
    have hquiet : Quiet d size xs := .of_exchanges hexchanges (by simp) (by simp)
    by_cases hunsupported : SystemError.isUnsupported (.code code) = true
    · -- no space is reserved, and the file is extended by its length alone
      simp only [ofSystem, resizer, hunsupported, if_true] at hr
      obtain ⟨_, _, _, zs, ⟨_, ⟨rfl, rfl, rfl⟩, rfl⟩, hpin, rfl⟩ := ends_bind.mp hr
      obtain ⟨set, hstops, -, hresizes⟩ := stops_pin hpin
      refine ⟨.error code, set, ?_, ?_⟩
      · have hnoted : Quiet d size (xs ++ [.noted (.preallocationUnsupported size (.code code))]) :=
          hquiet.append (.noted _)
        simpa using hresizes.around hnoted .nil
      · exact (Stops.of_tolerated hexchanges (by simp [hunsupported])).go (hstops.noted _)
    · simp only [ofSystem, resizer, hunsupported] at hr
      obtain ⟨rfl, rfl, rfl⟩ := hr
      simp only [List.append_nil]
      exact ⟨.error code, .ok (), .of_quiet hquiet,
        (Stops.of_error hexchanges (by simp [hunsupported])).stop _⟩

/-- A resize asks for the length, reserves space for a file that is shorter, and sets the
length. -/
theorem stops_resize {r : Except JournalError Unit}
    (h : CanEnd P (serve patience (.resize d size)) m r m' history) :
    ∃ length allocated set, Stops (resizing d size length allocated set) r history ∧
      Resizes d size m m' history ∧ ∀ n, length = .ok n → m.lengthOf d = .ok n := by
  obtain ⟨a, m₁, xs, ys, ha, hr, rfl⟩ := ends_bind.mp h
  obtain ⟨reply, hreply, rfl, hexchanges⟩ := exchanges_once ha
  obtain rfl := hreply.of_isQuery rfl
  have hquiet : Quiet d size xs := .of_exchanges hexchanges (by simp) (by simp)
  cases reply with
  | ok n =>
    have hlength := hreply.length_ok
    simp only [ofSystem] at hr
    split at hr
    · next hlt =>
      obtain ⟨allocated, set, hresizes, hstops⟩ := stops_growTo hr
      refine ⟨.ok n, allocated, set, ?_, by simpa using hresizes.around hquiet .nil, ?_⟩
      · unfold resizing reserving
        simp only [hlt, if_true]
        exact (Stops.of_ok hexchanges _).go hstops
      · rintro _ ⟨⟩
        exact hlength
    · next hge =>
      obtain ⟨set, hstops, -, hresizes⟩ := stops_pin hr
      refine ⟨.ok n, .ok (), set, ?_, by simpa using hresizes.around hquiet .nil, ?_⟩
      · unfold resizing reserving
        simp only [hge, if_false]
        exact (Stops.of_ok hexchanges _).go hstops
      · rintro _ ⟨⟩
        exact hlength
  | error code =>
    obtain ⟨rfl, rfl, rfl⟩ := hr
    simp only [List.append_nil]
    exact ⟨.error code, .ok (), .ok (), (Stops.of_error hexchanges rfl).stop _,
      .of_quiet hquiet, by simp⟩

/-! ## Syncing a directory -/

/-- Examining an open directory, and syncing it where the policy for it allows. -/
def examining (x : Descriptor) (fileSystem : Except Int UInt64) (synced : Except Int Unit) :
    List Trial :=
  .of (.fileSystem x) fileSystem (some ∘ .stat) ::
    match fileSystem with
    | .ok word =>
      if SyncPolicy.ofFileSystem word = .allowed then [.of (.sync x) synced (some ∘ .sync)] else []
    | .error _ => []

/-- Opening a directory, whose path may not hold a zero byte. -/
def opening (dir : Path) (opened : Except Int Descriptor) : Trial :=
  if dir.hasZeroByte then .refused (.opening dir .zeroByteInPath)
  else .of (.open_ dir .read) opened (some ∘ .opening dir)

/-- Opening, examining and syncing a directory. -/
def directorySyncing (dir : Path) (opened : Except Int Descriptor)
    (fileSystem : Except Int UInt64) (synced : Except Int Unit) : List Trial :=
  opening dir opened ::
    match opened with
    | .ok x => examining x fileSystem synced
    | .error _ => []

/-- The close of what an exchange has opened. -/
def closing (closed : Except Int Unit) : Exchange → Option Exchange
  | ⟨.open_ _ _, .ok x⟩ => some ⟨.close x, closed⟩
  | _ => none

/-- The exchanges, and after them the closes of all that they have opened. -/
def thenClosed (closed : Except Int Unit) (exchanges : List Exchange) : List Exchange :=
  exchanges ++ exchanges.filterMap (closing closed)

theorem stops_syncDirectory {x : Descriptor} {dir : Path} {r : Except JournalError Unit}
    (h : CanEnd P (syncDirectory patience dir x) m r m' history) :
    m' = m ∧ ∃ fileSystem synced, Stops (examining x fileSystem synced) r history := by
  obtain ⟨a, m₁, xs, ys, ha, hr, rfl⟩ := ends_bind.mp h
  obtain ⟨b, m₂, us, vs, hb, hpolicy, rfl⟩ := ends_bind.mp ha
  obtain ⟨reply, hreply, rfl, hexchanges⟩ := exchanges_once hb
  obtain rfl := hreply.of_isQuery rfl
  cases reply with
  | ok word =>
    obtain ⟨rfl, rfl, rfl⟩ := hpolicy
    have hexamined : Stops [.of (.fileSystem x) (.ok word) (some ∘ .stat)] (.ok ()) us :=
      .of_ok hexchanges _
    simp only [List.append_nil]
    cases hallowed : SyncPolicy.ofFileSystem word with
    | allowed =>
      simp only [hallowed] at hr
      obtain ⟨c, m₃, ws, zs, hc, hr, rfl⟩ := ends_bind.mp hr
      obtain ⟨reply, m₄, hs, ts, hd, ⟨rfl, rfl, rfl⟩, rfl⟩ := ends_bind.mp hc
      obtain ⟨hreply, hexchanges⟩ := exchanges_persist rfl hd
      obtain rfl := hreply.of_isQuery rfl
      cases reply with
      | ok u =>
        obtain ⟨rfl, hm, rfl⟩ := hr
        refine ⟨hm, .ok word, .ok u, ?_⟩
        simp only [examining, hallowed, if_true, List.append_nil]
        exact hexamined.go (.of_ok hexchanges _)
      | error code =>
        obtain ⟨rfl, hm, rfl⟩ := hr
        refine ⟨hm, .ok word, .error code, ?_⟩
        simp only [examining, hallowed, if_true, List.append_nil]
        exact hexamined.go (.of_error hexchanges rfl)
    | notAllowed =>
      simp only [hallowed] at hr
      obtain ⟨rest, ⟨rfl, hm, rfl⟩, rfl⟩ := hr
      refine ⟨hm, .ok word, .ok (), ?_⟩
      simp only [examining, hallowed]
      exact hexamined.go (.noted _ ⟨.nil, rfl⟩)
  | error code =>
    obtain ⟨rfl, rfl, rfl⟩ := hpolicy
    obtain ⟨rfl, hm, rfl⟩ := hr
    simp only [List.append_nil]
    exact ⟨hm, .error code, .ok (), .of_error hexchanges rfl⟩

/-- The call opens something. -/
def opens : SystemCall → Bool
  | .open_ _ _ => true
  | _ => false

theorem closing_of_opens_eq_false {closed : Except Int Unit} {x : Exchange}
    (h : opens x.call = false) : closing closed x = none := by
  obtain ⟨c, r⟩ := x
  cases c with
  | open_ p mode => exact absurd h (by simp [opens])
  | _ => rfl

theorem thenClosed_of_opens_eq_false {closed : Except Int Unit} {exchanges : List Exchange}
    (h : ∀ x ∈ exchanges, opens x.call = false) : thenClosed closed exchanges = exchanges := by
  have hnone : exchanges.filterMap (closing closed) = [] :=
    List.filterMap_eq_nil_iff.mpr fun x hx => closing_of_opens_eq_false (h x hx)
  rw [thenClosed, hnone, List.append_nil]

/-- Only closes come after what was to be done. -/
theorem exists_close_of_closing {closed : Except Int Unit} {exchanges : List Exchange}
    {x : Exchange} (h : x ∈ exchanges.filterMap (closing closed)) : ∃ d, x.call = .close d := by
  obtain ⟨y, -, hy⟩ := List.mem_filterMap.mp h
  unfold closing at hy
  split at hy
  · obtain rfl := Option.some.inj hy
    exact ⟨_, rfl⟩
  · exact absurd hy (by simp)

theorem mem_of_mem_thenClosed {closed : Except Int Unit} {exchanges : List Exchange} {x : Exchange}
    (h : x ∈ thenClosed closed exchanges) (hx : ∀ d, x.call ≠ .close d) : x ∈ exchanges := by
  rcases List.mem_append.mp h with h | h
  · exact h
  · obtain ⟨d, hd⟩ := exists_close_of_closing h
    exact absurd hd (hx d)

theorem forall_mem_examining {Q : Trial → Prop} {x : Descriptor}
    {fileSystem : Except Int UInt64} {synced : Except Int Unit}
    (hstat : Q (.of (.fileSystem x) fileSystem (some ∘ .stat)))
    (hsync : Q (.of (.sync x) synced (some ∘ .sync))) :
    ∀ t ∈ examining x fileSystem synced, Q t := by
  intro t ht
  unfold examining at ht
  rcases List.mem_cons.mp ht with rfl | ht
  · exact hstat
  · split at ht
    · split at ht
      · obtain rfl := List.mem_singleton.mp ht
        exact hsync
      · exact absurd ht (by simp)
    · exact absurd ht (by simp)

theorem calls_examining (Q : SystemCall → Prop) {x : Descriptor} (hstat : Q (.fileSystem x))
    (hsync : Q (.sync x)) {fileSystem : Except Int UInt64} {synced : Except Int Unit} :
    ∀ t ∈ examining x fileSystem synced, t.Calls Q :=
  forall_mem_examining (Trial.calls_of Q hstat _ _) (Trial.calls_of Q hsync _ _)

/-- An open directory is closed after all that was attempted with it. -/
theorem thenClosed_directorySyncing {dir : Path} (hzero : dir.hasZeroByte = false) {x : Descriptor}
    {fileSystem : Except Int UInt64} {synced : Except Int Unit} (closed : Except Int Unit) :
    thenClosed closed (Trial.made (directorySyncing dir (.ok x) fileSystem synced)) =
      Trial.made (directorySyncing dir (.ok x) fileSystem synced) ++ [⟨.close x, closed⟩] := by
  have hmade : Trial.made (directorySyncing dir (.ok x) fileSystem synced) =
      ⟨.open_ dir .read, .ok x⟩ :: Trial.made (examining x fileSystem synced) := by
    unfold directorySyncing opening Trial.made
    rw [if_neg (by simp [hzero]), Trial.attempted_of_none rfl]
    rfl
  have hexamining : (Trial.made (examining x fileSystem synced)).filterMap (closing closed) = [] :=
    List.filterMap_eq_nil_iff.mpr fun y hy => closing_of_opens_eq_false
      (Trial.forall_mem_made (calls_examining (opens · = false) rfl rfl) y hy)
  have hclosing : closing closed ⟨.open_ dir .read, .ok x⟩ = some ⟨.close x, closed⟩ := rfl
  rw [thenClosed, hmade, List.filterMap_cons_some hclosing, hexamining]

/-- A directory that could not be opened is not closed. -/
theorem thenClosed_directorySyncing_error (dir : Path) (code : Int)
    (fileSystem : Except Int UInt64) (synced closed : Except Int Unit) :
    thenClosed closed (Trial.made (directorySyncing dir (.error code) fileSystem synced)) =
      Trial.made (directorySyncing dir (.error code) fileSystem synced) := by
  unfold directorySyncing opening thenClosed
  split
  · simp [Trial.made, Trial.attempted, Trial.refused]
  · simp [Trial.made, Trial.attempted, Trial.of, closing]

/-- A directory is opened, or syncing it ends there. -/
theorem stops_opening {dir : Path} {a : Except SystemError Descriptor}
    (h : CanEnd P (openPath patience dir .read) m a m' history) :
    (∃ e code, a = .error e ∧ m' = m ∧
        Stops (directorySyncing dir (.error code) (.error 0) (.ok ())) (.error (.opening dir e))
          history) ∨
      ∃ x, a = .ok x ∧ dir.hasZeroByte = false ∧ m.Answers P (.open_ dir .read) (.ok x) m' ∧
        Exchanges [⟨.open_ dir .read, .ok x⟩] history := by
  rcases exchanges_openPath h with ⟨hzero, rfl, rfl, rfl⟩ | ⟨hzero, reply, hreply, rfl, hopening⟩
  · refine .inl ⟨_, 0, rfl, rfl, ?_⟩
    unfold directorySyncing opening
    rw [if_pos hzero]
    exact .refused _
  · cases reply with
    | error code =>
      refine .inl ⟨_, code, rfl, hreply.of_error (by simp), ?_⟩
      unfold directorySyncing opening
      rw [if_neg (by simp [hzero])]
      exact .of_error hopening rfl
    | ok x => exact .inr ⟨x, rfl, hzero, hreply, hopening⟩

/-- The directory of a path is closed again if it could be opened, whatever came of the rest, and
nothing is left of it. -/
theorem stops_syncDirectoryFor {p : Path} {r : Except JournalError Unit}
    (h : CanEnd P (serve patience (.syncDirectoryFor p)) m r m' history) :
    m.Keeps m' ∧ ∃ opened fileSystem synced closed,
      let trials := directorySyncing p.directory opened fileSystem synced
      r = Trial.verdict trials ∧ Exchanges (thenClosed closed (Trial.made trials)) history := by
  obtain ⟨a, m₁, xs, ys, ha, hr, rfl⟩ := ends_bind.mp h
  rcases stops_opening ha with ⟨e, code, rfl, rfl, hstops⟩ | ⟨x, rfl, hzero, hreply, hopening⟩
  · obtain ⟨rfl, rfl, rfl⟩ := hr
    refine ⟨.refl _, .error code, .error 0, .ok (), .ok (), hstops.verdict, ?_⟩
    rw [thenClosed_directorySyncing_error]
    simpa using hstops.exchanges
  · obtain ⟨result, m₂, us, vs, huse, hclose, rfl⟩ := ends_bind.mp hr
    obtain ⟨rfl, fileSystem, synced, hstops⟩ := stops_syncDirectory huse
    obtain ⟨b, m₃, ws, zs, hc, ⟨rfl, rfl, rfl⟩, rfl⟩ := ends_bind.mp hclose
    obtain ⟨closed, hclosed, rfl, hclosing⟩ := exchanges_once hc
    have hall : Stops (directorySyncing p.directory (.ok x) fileSystem synced) r (xs ++ us) := by
      unfold directorySyncing opening
      rw [if_neg (by simp [hzero])]
      exact (Stops.of_ok hopening _).go hstops
    have hexchanges := hall.exchanges.append hclosing
    rw [← thenClosed_directorySyncing hzero closed] at hexchanges
    refine ⟨?_, .ok x, fileSystem, synced, closed, hall.verdict, by simpa using hexchanges⟩
    -- the close forgets at most the descriptor that was opened here
    rcases hreply.openRead with ⟨target, -, hx, rfl⟩ | ⟨-, ⟨code, hx⟩, -⟩
    · obtain rfl := Except.ok.inj hx
      rcases hclosed.close.1 with rfl | ⟨rfl, -⟩
      · exact (m.keeps_openTarget _ _).forget (Nat.le_refl _)
      · exact m.keeps_openTarget _ _
    · exact absurd hx (by simp)

/-- Syncing a directory changes the length of no file. -/
theorem quiet_directorySyncing {dir : Path} {opened : Except Int Descriptor}
    {fileSystem : Except Int UInt64} {synced closed : Except Int Unit}
    (h : Exchanges (thenClosed closed
      (Trial.made (directorySyncing dir opened fileSystem synced))) history) :
    Quiet d size history := by
  have hopening : (opening dir opened).Calls (changesLength · = false) := by
    unfold opening
    split
    · exact Trial.calls_refused _ _
    · exact Trial.calls_of (changesLength · = false) rfl _ _
  have htrials : ∀ t ∈ directorySyncing dir opened fileSystem synced,
      t.Calls (changesLength · = false) := by
    intro t ht
    rcases List.mem_cons.mp ht with rfl | ht
    · exact hopening
    · split at ht
      · exact calls_examining (changesLength · = false) rfl rfl t ht
      · exact absurd ht (by simp)
  refine .of_changesLength h fun x hx => ?_
  rcases List.mem_append.mp hx with hx | hx
  · exact Trial.forall_mem_made htrials x hx
  · obtain ⟨y, hy⟩ := exists_close_of_closing hx
    rw [hy]
    rfl

end Posix

/-! ## Truncating -/

/-- The replies to the calls of a truncation, in the order in which the calls can be made. -/
structure Truncation where
  flushed : Except Int Unit
  length : Except Int Nat
  allocated : Except Int Unit
  set : Except Int Unit
  flushedAgain : Except Int Unit
  opened : Except Int Descriptor
  fileSystem : Except Int UInt64
  synced : Except Int Unit
  closed : Except Int Unit

namespace Truncation

open Posix

variable (a : Truncation) (d : Descriptor) (path : Option Path) (size : UInt64)

/-- What is done with the file: it is flushed, resized, and flushed again. -/
def filePlan : List Trial :=
  [flushing d a.flushed] ++
    (resizing d size a.length a.allocated a.set ++ [flushing d a.flushedAgain])

/-- What is done with the directory, if the handle has a path. -/
def directoryPlan : List Trial :=
  match path with
  | none => []
  | some p => directorySyncing p.directory a.opened a.fileSystem a.synced

/-- The calls of a truncation that is not stopped. -/
def plan : List Trial := a.filePlan d size ++ a.directoryPlan path

/-- The calls that are made: those up to the first that fails, and the close of the directory if
it was opened. -/
def exchanges : List Exchange := thenClosed a.closed (Trial.made (a.plan d path size))

variable {a d path size} {e : JournalError} {history xs ys : List (Happening System Event)}

theorem forall_mem_filePlan {Q : Trial → Prop} (hflush : ∀ flushed, Q (flushing d flushed))
    (hlength : Q (.of (.length d) a.length (some ∘ .resize size)))
    (hreserve : Q (reservation d size a.allocated))
    (hrefuse : Q (.refused (.resize size .lengthTooLarge)))
    (hset : Q (.of (.setLength d size) a.set (some ∘ .resize size))) :
    ∀ t ∈ a.filePlan d size, Q t := by
  have hreserving : ∀ t ∈ reserving d size a.length a.allocated, Q t := by
    intro t ht
    unfold reserving at ht
    split at ht
    · split at ht
      · obtain rfl := List.mem_singleton.mp ht
        exact hreserve
      · exact absurd ht (by simp)
    · exact absurd ht (by simp)
  have hpinning : Q (pinning d size a.set) := by
    unfold pinning
    split
    · exact hrefuse
    · exact hset
  intro t ht
  simp only [filePlan, resizing, List.mem_append, List.mem_singleton] at ht
  rcases ht with rfl | (rfl | ht | rfl) | rfl
  · exact hflush _
  · exact hlength
  · exact hreserving t ht
  · exact hpinning
  · exact hflush _

/-- What holds of the calls on the file holds of each call of its plan. -/
theorem calls_filePlan (Q : SystemCall → Prop) (hsync : Q (.sync d)) (hlength : Q (.length d))
    (hallocate : Q (.allocate d size)) (hset : Q (.setLength d size)) :
    ∀ t ∈ a.filePlan d size, t.Calls Q :=
  forall_mem_filePlan (fun _ => Trial.calls_of Q hsync _ _) (Trial.calls_of Q hlength _ _)
    (Trial.calls_of Q hallocate _ _) (Trial.calls_refused Q _) (Trial.calls_of Q hset _ _)

/-- Nothing is opened while the file is worked on. -/
theorem opens_filePlan : ∀ x ∈ Trial.made (a.filePlan d size), opens x.call = false :=
  Trial.forall_mem_made (calls_filePlan (opens · = false) rfl rfl rfl rfl)

/-- A failure before the directory is opened leaves nothing to be closed. -/
theorem of_error (path : Option Path) (h : Stops (a.filePlan d size) (.error e) history) :
    Trial.verdict (a.plan d path size) = .error e ∧
      Exchanges (a.exchanges d path size) history := by
  refine ⟨(h.stop _).verdict.symm, ?_⟩
  unfold exchanges plan
  rw [Trial.made_append_of_error h.verdict.symm,
    thenClosed_of_opens_eq_false opens_filePlan]
  exact h.exchanges

/-- When the file is done, the outcome is that of the directory, and what was opened is closed. -/
theorem of_ok (path : Option Path) {r : Except JournalError Unit}
    (h : Stops (a.filePlan d size) (.ok ()) xs)
    (hverdict : r = Trial.verdict (a.directoryPlan path))
    (hexchanges : Exchanges (thenClosed a.closed (Trial.made (a.directoryPlan path))) ys) :
    r = Trial.verdict (a.plan d path size) ∧ Exchanges (a.exchanges d path size) (xs ++ ys) := by
  have hfile : Trial.verdict (a.filePlan d size) = .ok () := h.verdict.symm
  have hnone : (Trial.made (a.filePlan d size)).filterMap (closing a.closed) = [] :=
    List.filterMap_eq_nil_iff.mpr fun x hx =>
      closing_of_opens_eq_false (opens_filePlan x hx)
  refine ⟨hverdict.trans (Trial.append_of_ok hfile).2.symm, ?_⟩
  have hall := h.exchanges.append hexchanges
  unfold exchanges plan
  rw [Trial.made_append_of_ok hfile, thenClosed, List.filterMap_append, hnone, List.nil_append,
    List.append_assoc]
  exact hall

end Truncation

namespace Posix

variable {P : SystemCall → Verdict → Prop} {m m' : Machine}
  {history : List (Happening System Event)} {d : Descriptor} {size : UInt64} {patience : Nat}

/-- Syncing the directory of a path, if there is one. -/
def syncAny : Option Path → StepProgram (Except JournalError Unit)
  | none => .done (.ok ())
  | some p => (Step.syncDirectoryFor p).take

/-- A truncation starts with what is done with the file, and goes on with the directory if nothing
of that fails. -/
theorem stops_file {path : Option Path} {r : Except JournalError Unit}
    (h : CanEnd P (native patience (Handle.truncateFile path d size)) m r m' history) :
    ∃ (a : Truncation) (r₁ : Except JournalError Unit) (m₁ : Machine)
      (xs ys : List (Happening System Event)),
      Stops (a.filePlan d size) r₁ xs ∧ (∀ n, a.length = .ok n → m.lengthOf d = .ok n) ∧
        Resizes d size m m₁ xs ∧ history = xs ++ ys ∧
        ((∃ e, r₁ = .error e ∧ r = .error e ∧ m' = m₁ ∧ ys = []) ∨
          r₁ = .ok () ∧ CanEnd P (native patience (syncAny path)) m₁ r m' ys) := by
  unfold Handle.truncateFile at h
  rw [native_bind, native_take] at h
  obtain ⟨x, m₁, xs, ys, hx, hr, rfl⟩ := ends_bind.mp h
  obtain ⟨rfl, hquiet, flushed, hflushed⟩ : _ ∧ Quiet d size xs ∧ _ := stops_flush hx
  rcases x with e | u
  · -- the file could not be flushed
    obtain ⟨rfl, rfl, rfl⟩ := hr
    exact ⟨⟨flushed, .error 0, .ok (), .ok (), .ok (), .error 0, .error 0, .ok (), .ok ()⟩,
      .error e, _, xs, [], hflushed.stop _, by simp, .of_quiet hquiet, rfl,
      .inl ⟨e, rfl, rfl, rfl, rfl⟩⟩
  · rw [native_bind, native_take] at hr
    obtain ⟨y, m₂, us, vs, hy, hr, rfl⟩ := ends_bind.mp hr
    obtain ⟨length, allocated, set, hresized, hresizes, hlength⟩ := stops_resize hy
    rcases y with e | u
    · -- the file could not be resized
      obtain ⟨rfl, rfl, rfl⟩ := hr
      exact ⟨⟨flushed, length, allocated, set, .ok (), .error 0, .error 0, .ok (), .ok ()⟩,
        .error e, _, xs ++ us, [], hflushed.go (hresized.stop _), hlength,
        by simpa using hresizes.around hquiet .nil, by simp, .inl ⟨e, rfl, rfl, rfl, rfl⟩⟩
    · rw [native_bind, native_take] at hr
      obtain ⟨z, m₃, ws, zs, hz, hr, rfl⟩ := ends_bind.mp hr
      obtain ⟨rfl, hquiet', flushedAgain, hflushed'⟩ : _ ∧ Quiet d size ws ∧ _ := stops_flush hz
      refine ⟨⟨flushed, length, allocated, set, flushedAgain, .error 0, .error 0, .ok (), .ok ()⟩,
        z, _, xs ++ (us ++ ws), zs, hflushed.go (hresized.go hflushed'), hlength,
        by simpa using hresizes.around hquiet hquiet', by simp, ?_⟩
      rcases z with e | u
      · -- the file could not be flushed again
        obtain ⟨rfl, rfl, rfl⟩ := hr
        exact .inl ⟨e, rfl, rfl, rfl, rfl⟩
      · cases path with
        | none => exact .inr ⟨rfl, hr⟩
        | some p => exact .inr ⟨rfl, hr⟩

/-- A truncation makes the calls of its plan up to the first that fails. -/
theorem stops_truncateFile {path : Option Path} {r : Except JournalError Unit}
    (h : CanEnd P (native patience (Handle.truncateFile path d size)) m r m' history) :
    ∃ a : Truncation, r = Trial.verdict (a.plan d path size) ∧
      Exchanges (a.exchanges d path size) history ∧
      (∀ n, a.length = .ok n → m.lengthOf d = .ok n) ∧
      ∃ m₁, Resizes d size m m₁ history ∧ m₁.Keeps m' := by
  obtain ⟨a, r₁, m₁, xs, ys, hfile, hlength, hresizes, rfl,
    ⟨e, rfl, rfl, rfl, rfl⟩ | ⟨rfl, hsync⟩⟩ := stops_file h
  · obtain ⟨hverdict, hexchanges⟩ := Truncation.of_error path hfile
    simp only [List.append_nil]
    exact ⟨a, hverdict.symm, hexchanges, hlength, _, hresizes, .refl _⟩
  · cases path with
    | none =>
      obtain ⟨rfl, rfl, rfl⟩ := hsync
      obtain ⟨hverdict, hexchanges⟩ := Truncation.of_ok none hfile rfl .nil
      exact ⟨a, hverdict, hexchanges, hlength, _, by simpa using hresizes, .refl _⟩
    | some p =>
      have hsync' : CanEnd P (serve patience (.syncDirectoryFor p)) m₁ r m' ys := by
        rw [← native_take]
        exact hsync
      obtain ⟨hkeeps, opened, fileSystem, synced, closed, hdirectory, hclosing⟩ :=
        stops_syncDirectoryFor hsync'
      have hquiet : Quiet d size ys := quiet_directorySyncing hclosing
      -- the plan for the file does not depend on what the directory's calls are answered
      let b : Truncation :=
        { a with opened := opened, fileSystem := fileSystem, synced := synced, closed := closed }
      have hfile' : Stops (b.filePlan d size) (.ok ()) xs := hfile
      obtain ⟨hverdict, hexchanges⟩ := Truncation.of_ok (some p) hfile' hdirectory hclosing
      have hresizes' := hresizes.around .nil hquiet
      exact ⟨b, hverdict, hexchanges, hlength, _, by simpa using hresizes', hkeeps⟩

/-- The report that follows a truncation adds no call. -/
theorem stops_truncate {h : Handle} (hd : h.descriptor = some d) {r : Outcome Unit}
    (hends : CanEnd P (native patience (h.truncate size)) m r m' history) :
    ∃ a : Truncation, r = Outcome.ofResult (Trial.verdict (a.plan d h.path size)) ∧
      Exchanges (a.exchanges d h.path size) history ∧
      (∀ n, a.length = .ok n → m.lengthOf d = .ok n) ∧
      ∃ m₁, Resizes d size m m₁ history ∧ m₁.Keeps m' := by
  unfold Handle.truncate Handle.withFile at hends
  rw [hd] at hends
  simp only [native_bind] at hends
  obtain ⟨result, m₁, xs, ys, hresult, hreport, rfl⟩ := ends_bind.mp hends
  obtain ⟨a, hverdict, hexchanges, hlength, m₂, hresizes, hkeeps⟩ := stops_truncateFile hresult
  -- the report that follows is an event, or nothing
  have hreported : r = Outcome.ofResult result ∧ m' = m₁ ∧ Exchanges [] ys ∧ Quiet d size ys := by
    rcases result with e | u
    · obtain ⟨rfl, rfl, rfl⟩ := hreport
      exact ⟨rfl, rfl, .nil, .nil⟩
    · obtain ⟨_, ⟨rfl, rfl, rfl⟩, rfl⟩ := hreport
      exact ⟨rfl, rfl, .noted _ .nil, .noted _⟩
  obtain ⟨rfl, rfl, hnone, hquiet⟩ := hreported
  exact ⟨a, congrArg _ hverdict, by simpa using hexchanges.append hnone, hlength, m₂,
    by simpa using hresizes.around .nil hquiet, hkeeps⟩

end Posix

namespace Truncation

open Posix

variable {a : Truncation} {d : Descriptor} {path : Option Path} {size : UInt64}
  {history : List (Happening System Event)}

theorem honest_filePlan : ∀ t ∈ a.filePlan d size, t.Honest := by
  have hreservation : (reservation d size a.allocated).Honest := by
    refine Trial.honest_of _ fun code e he => ?_
    split at he
    · exact absurd he (by simp)
    · obtain rfl := Option.some.inj he
      rfl
  exact forall_mem_filePlan (fun _ => Trial.honest_of_comp _ fun _ => rfl)
    (Trial.honest_of_comp _ fun _ => rfl) hreservation (Trial.honest_refused rfl)
    (Trial.honest_of_comp _ fun _ => rfl)

theorem honest_directoryPlan : ∀ t ∈ a.directoryPlan path, t.Honest := by
  have hopening : ∀ dir, (opening dir a.opened).Honest := by
    intro dir
    unfold opening
    split
    · exact Trial.honest_refused rfl
    · exact Trial.honest_of_comp _ fun _ => rfl
  intro t ht
  cases path with
  | none => exact absurd ht (by simp [directoryPlan])
  | some p =>
    rcases List.mem_cons.mp ht with rfl | ht
    · exact hopening _
    · split at ht
      · exact forall_mem_examining (Trial.honest_of_comp _ fun _ => rfl)
          (Trial.honest_of_comp _ fun _ => rfl) t ht
      · exact absurd ht (by simp)

theorem pinning_mem_plan : pinning d size a.set ∈ a.plan d path size := by
  simp [plan, filePlan, resizing]

/-- A truncation of which no call fails has set the length. -/
theorem wasSet_of_ok (h : Trial.verdict (a.plan d path size) = .ok ())
    (hexchanges : Exchanges (a.exchanges d path size) history) : WasSet d size history := by
  have hfailure : (pinning d size a.set).failure? = none :=
    Trial.failure?_of_ok h pinning_mem_plan
  have hexchange : (pinning d size a.set).exchange? = some ⟨.setLength d size, .ok ()⟩ := by
    unfold pinning at hfailure ⊢
    split at hfailure
    · exact absurd hfailure (by simp [Trial.refused])
    · next hsize =>
      rw [if_neg hsize]
      cases hset : a.set with
      | ok u => rfl
      | error code =>
        rw [hset] at hfailure
        exact absurd hfailure (by simp [Trial.of])
  have hmade := Trial.mem_made_of_ok h pinning_mem_plan hexchange
  exact hexchanges.answered_of_mem (List.mem_append_left _ hmade)

end Truncation

namespace Handle

/-- A truncation makes the calls of its plan up to the first that fails, and closes the directory
if it was opened; each is made once, unless a signal interrupts one.  It succeeds exactly if none
fails, and otherwise reports the failure with the code of the call that failed.  What that leaves of
the file hangs on which calls had succeeded: the file has the length once that was set, is extended
with zeros while space was only reserved for it, and is untouched until then. -/
theorem truncate_stops {φ : Type} (patience : Nat) (decide : Policy φ) (m : Machine) (s : φ)
    (d : Descriptor) (path : Option Path) (deleteOnClose : Bool) (size : UInt64) :
    let r := (Posix.native patience ((⟨some d, path, deleteOnClose⟩ : Handle).truncate size)).run
      decide.handler (m, s)
    ∃ a : Truncation,
      Exchanges (a.exchanges d path size) r.history ∧
      ((∀ c, .answered c (.error Errno.interrupted) ∉ r.history) →
        r.requests = (a.exchanges d path size).map (·.call)) ∧
      r.value = Outcome.ofResult (Trial.verdict (a.plan d path size)) ∧
      (∀ e, r.value = .error (.error e) →
        ∃ t, (Trial.attempted (a.plan d path size)).getLast? = some t ∧
          t.failure? = some e ∧ e.detailCode = t.rawCode) ∧
      (∀ n, a.length = .ok n → m.lengthOf d = .ok n) ∧
      (r.value = .ok () → Posix.WasSet d size r.history) ∧
      ∃ m', Posix.Resizes d size m m' r.history ∧ m'.Keeps r.world.1 := by
  intro r
  have hends : CanEnd (fun _ _ => True) _ m r.value r.world.1 r.history :=
    Posix.canEnd_run (fun _ _ => trivial) _ (m, s)
  obtain ⟨a, hvalue, hexchanges, hlength, m', hresizes, hkeeps⟩ := Posix.stops_truncate rfl hends
  refine ⟨a, hexchanges, hexchanges.requestsOf_eq, hvalue, fun e he => ?_, hlength,
    fun hok => ?_, m', hresizes, hkeeps⟩
  · have hfailed : Trial.verdict (a.plan d path size) = .error e :=
      Outcome.ofResult_eq_error_iff.mp (hvalue.symm.trans he)
    obtain ⟨t, ht, hlast, hfailure⟩ := Trial.getLast?_attempted_of_error hfailed
    refine ⟨t, hlast, hfailure, ?_⟩
    rcases List.mem_append.mp ht with ht | ht
    · exact Truncation.honest_filePlan t ht e hfailure
    · exact Truncation.honest_directoryPlan t ht e hfailure
  · have hpassed : Trial.verdict (a.plan d path size) = .ok () :=
      Outcome.ofResult_eq_ok_iff.mp (hvalue.symm.trans hok)
    exact Truncation.wasSet_of_ok hpassed hexchanges

end Handle

end WriteAhead
