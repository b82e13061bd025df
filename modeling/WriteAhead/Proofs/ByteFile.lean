/-
# A journal file as a list of bytes

On a benign system, a session whose journals are all on one regular file answers as if the file
were a list of bytes, however the system splits transfers and rounds preallocations.

Main statements:

* `ByteFile.matches_step` : one operation, beside the same operation on the list;
* `Session.refines_byteFile` : a whole session.
-/
import WriteAhead.Proofs.Benign
import WriteAhead.Proofs.Directory
import WriteAhead.Proofs.Session

namespace WriteAhead

open Program

namespace ByteFile

/-! ## The list of bytes -/

/-- The bytes cut to a length, or followed by zeros up to it. -/
def resize (bytes : Bytes) (n : Nat) : Bytes :=
  bytes.take n ++ List.replicate (n - bytes.length) 0

/-- The bytes followed by zeros up to a length. -/
def pad (bytes : Bytes) (n : Nat) : Bytes := bytes ++ List.replicate (n - bytes.length) 0

/-- The bytes with others from an offset on, in place of what was there and after zeros up to the
offset; no bytes change nothing. -/
def overwrite (bytes : Bytes) (offset : Nat) (block : Bytes) : Bytes :=
  if block = [] then bytes
  else resize bytes offset ++ block ++ bytes.drop (offset + block.length)

/-- The stretch of bytes that starts at an offset, as far as there are any. -/
def window (bytes : Bytes) (offset count : Nat) : Bytes := (bytes.drop offset).take count

/-- The bytes after an operation. -/
def after (bytes : Bytes) : Operation → Bytes
  | .openForWrite _ _ _ size _ => pad bytes size.toNat
  | .write _ block offset => overwrite bytes offset.toNat block
  | .truncate _ size => resize bytes size.toNat
  | _ => bytes

/-- What an operation is answered. -/
def answer (bytes : Bytes) : Operation → Answer
  | .openForWrite _ _ _ size _ => .number (max bytes.length size.toNat)
  | .read _ buffer offset =>
    let got := window bytes offset.toNat buffer.length
    .transfer got.length (got ++ buffer.drop got.length)
  | .size _ => .number bytes.length
  | _ => .done

/-- Carries out operations one after the other: what each is answered, and the bytes after it. -/
def run : Bytes → List Operation → List (Answer × Bytes)
  | _, [] => []
  | bytes, op :: ops => (answer bytes op, after bytes op) :: run (after bytes op) ops

/-! ## Contents as lists of bytes -/

theorem toBytes_setLength (c : Content) (n : Nat) :
    (c.setLength n).toBytes = resize c.toBytes n := by
  rw [Content.toBytes_setLength, resize, Content.length_toBytes]

theorem toBytes_setLength_max (c : Content) (n : Nat) :
    (c.setLength (max c.length n)).toBytes = pad c.toBytes n := by
  rw [Content.toBytes_setLength_of_le (Nat.le_max_left _ _), pad, Content.length_toBytes,
    show max c.length n - c.length = n - c.length by omega]

theorem toBytes_overlay (c : Content) (offset : Nat) (block : Bytes) :
    (c.overlay offset block).toBytes = overwrite c.toBytes offset block := by
  unfold overwrite
  split
  · next hblock => rw [hblock, Content.overlay_nil]
  · next hblock => rw [Content.toBytes_overlay c offset hblock, resize, Content.length_toBytes]

/-! ## What a session may do -/

/-- What a journal was opened for. -/
inductive Role where
  | writer (ephemeral : Bool)
  | reader
deriving DecidableEq

namespace Role

/-- The journal can be written to. -/
def writes : Role → Bool
  | writer _ => true
  | reader => false

/-- The file goes with the journal. -/
def isEphemeral : Role → Bool
  | writer ephemeral => ephemeral
  | reader => false

/-- The handle of a journal on a path. -/
def handle (p : Path) (d : Descriptor) : Role → Handle
  | writer ephemeral => ⟨some d, some p, ephemeral⟩
  | reader => ⟨some d, none, false⟩

@[simp] theorem descriptor_handle (p : Path) (d : Descriptor) (r : Role) :
    (r.handle p d).descriptor = some d := by
  cases r <;> rfl

@[simp] theorem deleteOnClose_handle (p : Path) (d : Descriptor) (r : Role) :
    (r.handle p d).deleteOnClose = r.isEphemeral := by
  cases r <;> rfl

end Role

/-- The role of the journal with a number, if it is open. -/
def role? (roles : List (Option Role)) (j : Nat) : Option Role := roles[j]?.join

/-- The operation opens a journal on `p`, or uses one as its role allows; it reaches no offset and
no size that is not a signed word, and does not end an ephemeral journal. -/
def Allowed (p : Path) (roles : List (Option Role)) : Operation → Prop
  | .openForWrite _ q _ size _ => q = p ∧ size ≠ 0 ∧ size.toNat < Machine.offsetLimit
  | .openForRead _ q => q = p
  | .write j block offset =>
    (role? roles j).any Role.writes = true ∧
      offset.toNat + block.length < Machine.offsetLimit
  | .read j buffer offset =>
    role? roles j = some .reader ∧ offset.toNat + buffer.length < Machine.offsetLimit
  | .truncate j size =>
    (role? roles j).any Role.writes = true ∧ size.toNat < Machine.offsetLimit
  | .size j => (role? roles j).isSome = true
  | .close j | .drop j => (role? roles j).any (!·.isEphemeral) = true

instance (p : Path) (roles : List (Option Role)) (op : Operation) :
    Decidable (Allowed p roles op) :=
  match op with
  | .openForWrite _ _ _ _ _ | .write _ _ _ | .read _ _ _ | .truncate _ _ =>
    inferInstanceAs (Decidable (_ ∧ _))
  | .openForRead _ q => inferInstanceAs (Decidable (q = p))
  | .size _ | .close _ | .drop _ => inferInstanceAs (Decidable (_ = true))

/-- The roles of the journals after an operation. -/
def rolesAfter (roles : List (Option Role)) : Operation → List (Option Role)
  | .openForWrite _ _ mode _ _ => roles ++ [some (.writer (decide (mode = .pureMemory)))]
  | .openForRead _ _ => roles ++ [some .reader]
  | .close j | .drop j => roles.set j none
  | _ => roles

/-- Each of the operations is allowed when its turn comes. -/
def Admissible (p : Path) : List (Option Role) → List Operation → Prop
  | _, [] => True
  | roles, op :: ops => Allowed p roles op ∧ Admissible p (rolesAfter roles op) ops

instance decidableAdmissible (p : Path) :
    (roles : List (Option Role)) → (ops : List Operation) → Decidable (Admissible p roles ops)
  | _, [] => inferInstanceAs (Decidable True)
  | roles, op :: ops =>
    have := decidableAdmissible p (rolesAfter roles op) ops
    inferInstanceAs (Decidable (Allowed p roles op ∧ Admissible p (rolesAfter roles op) ops))

/-! ## The open journals of a machine -/

/-- The seat of an open journal: its platform, its role, and its descriptor. -/
structure Seat where
  on : Nat
  role : Role
  descriptor : Descriptor

namespace Seat

/-- The journal that sits there, on a path. -/
def live (p : Path) (x : Seat) : LiveJournal := ⟨x.on, x.role.handle p x.descriptor⟩

/-- What is open under its descriptor. -/
def file (x : Seat) (id : FileId) : OpenFile := ⟨x.role.writes, .file id⟩

end Seat

variable {p : Path} {id : FileId} {seats : List (Option Seat)} {m m' : Machine}

/-- The path leads to the file `id`, and every seat has a descriptor of its own on that file. -/
structure Holds (p : Path) (id : FileId) (seats : List (Option Seat)) (m : Machine) : Prop where
  named : m.tree.openExisting m.workingDirectory p = .ok (.file id)
  lower : ∀ (i : Nat) (x : Seat), seats[i]? = some (some x) → x.descriptor.number < m.nextNumber
  opened : ∀ (i : Nat) (x : Seat), seats[i]? = some (some x) →
    m.opened x.descriptor.number = some (x.file id)
  apart : ∀ (i j : Nat) (x y : Seat), seats[i]? = some (some x) → seats[j]? = some (some y) →
    x.descriptor.number = y.descriptor.number → i = j

theorem Holds.setContent (h : Holds p id seats m) (c : Content) :
    Holds p id seats (m.setContent id c) where
  named := by
    rw [Machine.tree_setContent, FileTree.openExisting_setContent]
    exact h.named
  lower := h.lower
  opened := h.opened
  apart := h.apart

theorem Holds.of_keeps (h : Holds p id seats m) (hm : m.Keeps m') : Holds p id seats m' where
  named := by
    rw [hm.tree, hm.workingDirectory]
    exact h.named
  lower := fun i x hx => Nat.lt_of_lt_of_le (h.lower i x hx) hm.nextNumber
  opened := fun i x hx => (hm.opened _ (h.lower i x hx)).trans (h.opened i x hx)
  apart := h.apart

/-- What is found in a longer list was there before, or is what was added. -/
theorem of_getElem?_append {α : Type} {xs : List α} {a b : α} {i : Nat}
    (h : (xs ++ [a])[i]? = some b) : xs[i]? = some b ∨ i = xs.length ∧ b = a := by
  rw [List.getElem?_append] at h
  split at h
  · exact .inl h
  · next hi =>
    rw [List.getElem?_singleton] at h
    split at h
    · next hzero => exact .inr ⟨by omega, (Option.some.inj h).symm⟩
    · exact absurd h (by simp)

/-- A descriptor that was just made is a new seat. -/
theorem Holds.openTarget (h : Holds p id seats m) (x : Seat)
    (hx : x.descriptor.number = m.nextNumber) :
    Holds p id (seats ++ [some x]) (m.openTarget p (x.file id)).2 where
  named := h.named
  lower := by
    intro i y hy
    rcases of_getElem?_append hy with hy | ⟨-, hxy⟩
    · exact Nat.lt_succ_of_lt (h.lower i y hy)
    · obtain rfl := Option.some.inj hxy
      rw [hx]
      exact Nat.lt_succ_self _
  opened := by
    intro i y hy
    rcases of_getElem?_append hy with hy | ⟨-, hxy⟩
    · have hne : y.descriptor.number ≠ m.nextNumber := Nat.ne_of_lt (h.lower i y hy)
      simp only [Machine.openTarget, hne, if_false]
      exact h.opened i y hy
    · obtain rfl := Option.some.inj hxy
      simp only [Machine.openTarget, hx, if_true]
  apart := by
    intro i j y z hy hz hyz
    rcases of_getElem?_append hy with hyold | ⟨hi, hyx⟩ <;>
      rcases of_getElem?_append hz with hzold | ⟨hj, hzx⟩
    · exact h.apart i j y z hyold hzold hyz
    · obtain rfl := Option.some.inj hzx
      exact absurd (hyz.trans hx) (Nat.ne_of_lt (h.lower i y hyold))
    · obtain rfl := Option.some.inj hyx
      exact absurd (hyz.symm.trans hx) (Nat.ne_of_lt (h.lower j z hzold))
    · exact hi.trans hj.symm

/-- A descriptor that is closed leaves its seat empty, and no other. -/
theorem Holds.forget (h : Holds p id seats m) {j : Nat} {x : Seat}
    (hx : seats[j]? = some (some x)) :
    Holds p id (seats.set j none) (m.forget x.descriptor.number) := by
  have hold : ∀ i y, (seats.set j none)[i]? = some (some y) →
      i ≠ j ∧ seats[i]? = some (some y) := by
    intro i y hy
    rw [List.getElem?_set] at hy
    by_cases hij : j = i
    · simp [hij] at hy
    · exact ⟨fun h => hij h.symm, by simpa [hij] using hy⟩
  refine ⟨h.named, fun i y hy => h.lower i y (hold i y hy).2, fun i y hy => ?_,
    fun i k y z hy hz => h.apart i k y z (hold i y hy).2 (hold k z hz).2⟩
  obtain ⟨hij, hy⟩ := hold i y hy
  have hne : y.descriptor.number ≠ x.descriptor.number :=
    fun hyx => hij (h.apart i j y x hy hx hyx)
  simp only [Machine.forget, hne, if_false]
  exact h.opened i y hy

/-! ## Sessions on one file -/

variable {φ : Type} {patience : Nat} {decide : Policy φ} {s : Session (Machine × φ)}
  {roles : List (Option Role)} {bytes : Bytes}

/-- The session has journals in these roles on the file at `p`, which holds these bytes. -/
def Represents (p : Path) (s : Session (Machine × φ)) (roles : List (Option Role))
    (bytes : Bytes) : Prop :=
  ∃ id seats, Holds p id seats s.world.1 ∧
    s.journals = seats.map (Option.map (Seat.live p)) ∧
    roles = seats.map (Option.map Seat.role) ∧
    bytes = (s.world.1.tree.content id).toBytes

/-- At the start, no journal is open on the file. -/
theorem represents_start {c : Content} (hfile : m.fileAt? p = some c) (w : φ) :
    Represents p (Session.start (m, w)) [] c.toBytes := by
  obtain ⟨id, hopen, rfl⟩ := FileTree.openExisting_of_readFile? hfile
  refine ⟨id, [], ⟨hopen, ?_, ?_, ?_⟩, rfl, rfl, rfl⟩ <;> simp

theorem Represents.fileAt? (h : Represents p s roles bytes) :
    (s.world.1.fileAt? p).map Content.toBytes = some bytes := by
  obtain ⟨id, seats, hholds, -, -, rfl⟩ := h
  unfold Machine.fileAt?
  rw [FileTree.readFile?_of_openExisting hholds.named]
  rfl

/-- A journal in a role has a seat. -/
theorem seat_of_role {j : Nat} {role : Role}
    (h : role? (seats.map (Option.map Seat.role)) j = some role) :
    ∃ x : Seat, seats[j]? = some (some x) ∧ x.role = role := by
  unfold role? at h
  rw [List.getElem?_map] at h
  cases hseat : seats[j]? with
  | none => simp [hseat] at h
  | some o =>
    cases o with
    | none => simp [hseat] at h
    | some x => exact ⟨x, rfl, by simpa [hseat] using h⟩

theorem live?_of_seat {j : Nat} {x : Seat} (hx : seats[j]? = some (some x))
    (hjournals : s.journals = seats.map (Option.map (Seat.live p))) :
    s.live? j = some (x.live p) := by
  unfold Session.live?
  rw [hjournals, List.getElem?_map, hx]
  rfl

/-! ## One operation -/

/-- A record gives this answer and leaves a session with these roles and bytes. -/
def Matches (p : Path) (r : Session.Record System (Machine × φ)) (a : Answer)
    (roles : List (Option Role)) (bytes : Bytes) : Prop :=
  r.answer = some (.ok a) ∧ Represents p r.after roles bytes

variable {α : Type} {op : Operation} {j : Nat} {x : Seat} {a : Answer}

/-- An attempt to open a journal that can only succeed adds a seat. -/
theorem matches_opened (hdecide : decide.Within Benign) {on : Nat}
    {q : StepProgram (Outcome (Handle × Nat))} {f : Nat → Answer} {role : Role} {n : Nat}
    {d : Descriptor} (hjournals : s.journals = seats.map (Option.map (Seat.live p)))
    (hq : ∀ {r m' history}, CanEnd Benign (Posix.native patience q) s.world.1 r m' history →
      r = .ok (role.handle p d, n) ∧ Holds p id (seats ++ [some ⟨on, role, d⟩]) m' ∧
        bytes = (m'.tree.content id).toBytes) :
    Matches p (s.opened op on ((Posix.platform patience decide).run q s.world) f) (f n)
      (seats.map (Option.map Seat.role) ++ [some role]) bytes := by
  obtain ⟨hr, hholds, hbytes⟩ := hq (Posix.canEnd_run hdecide (Posix.native patience q) s.world)
  have hvalue : ((Posix.platform patience decide).run q s.world).value =
      .ok (role.handle p d, n) := hr
  unfold Session.opened
  rw [hvalue]
  refine ⟨rfl, id, seats ++ [some ⟨on, role, d⟩], hholds, ?_, ?_, hbytes⟩
  · rw [hjournals, List.map_append]
    rfl
  · rw [List.map_append]
    rfl

/-- An operation that leaves its journal open leaves the seats as they are. -/
theorem matches_used (hdecide : decide.Within Benign) {q : Handle → StepProgram α}
    {f : α → Outcome Answer} (hx : seats[j]? = some (some x))
    (hjournals : s.journals = seats.map (Option.map (Seat.live p)))
    (hq : ∀ {r m' history},
      CanEnd Benign (Posix.native patience (q (x.role.handle p x.descriptor))) s.world.1 r m'
        history →
      f r = .ok a ∧ Holds p id seats m' ∧ bytes = (m'.tree.content id).toBytes) :
    Matches p (s.used (fun _ => Posix.platform patience decide) op j q f) a
      (seats.map (Option.map Seat.role)) bytes := by
  obtain ⟨hr, hholds, hbytes⟩ := hq (Posix.canEnd_run hdecide
    (Posix.native patience (q (x.role.handle p x.descriptor))) s.world)
  unfold Session.used
  rw [live?_of_seat hx hjournals]
  exact ⟨congrArg some hr, id, seats, hholds, hjournals, rfl, hbytes⟩

/-- An operation that ends its journal empties the seat. -/
theorem matches_ended (hdecide : decide.Within Benign) {q : Features → Handle → StepProgram α}
    {f : α → Outcome Answer} (hx : seats[j]? = some (some x))
    (hjournals : s.journals = seats.map (Option.map (Seat.live p)))
    (hq : ∀ {r m' history},
      CanEnd Benign (Posix.native patience (q Features.posix (x.role.handle p x.descriptor)))
        s.world.1 r m' history →
      f r = .ok a ∧ Holds p id (seats.set j none) m' ∧ bytes = (m'.tree.content id).toBytes) :
    Matches p (s.ended (fun _ => Posix.platform patience decide) op j q f) a
      ((seats.map (Option.map Seat.role)).set j none) bytes := by
  obtain ⟨hr, hholds, hbytes⟩ := hq (Posix.canEnd_run hdecide
    (Posix.native patience (q Features.posix (x.role.handle p x.descriptor))) s.world)
  unfold Session.ended
  rw [live?_of_seat hx hjournals]
  refine ⟨congrArg some hr, id, seats.set j none, hholds, ?_, ?_, hbytes⟩
  · show s.journals.set j none = _
    rw [hjournals, List.map_set]
    rfl
  · rw [List.map_set]
    rfl

theorem matches_openForWrite (hdecide : decide.Within Benign) (hzero : p.hasZeroByte = false)
    (h : Represents p s roles bytes) {on : Nat} {mode : JournalMode} {size : UInt64}
    {support : DurabilitySupport} (hpos : size ≠ 0) (hsize : size.toNat < Machine.offsetLimit) :
    Matches p (s.step (fun _ => Posix.platform patience decide)
        (.openForWrite on p mode size support))
      (.number (max bytes.length size.toNat))
      (roles ++ [some (.writer (mode = .pureMemory))])
      (pad bytes size.toNat) := by
  obtain ⟨id, seats, hholds, hjournals, rfl, rfl⟩ := h
  apply matches_opened hdecide hjournals
  intro r m' history hr
  obtain ⟨rfl, rfl⟩ := Posix.ends_openForWrite_benign hzero hholds.named hpos hsize hr
  rw [Content.length_toBytes]
  refine ⟨?_, ?_, ?_⟩
  · rw [Journal.writer_eq]
    rfl
  · exact (hholds.openTarget ⟨on, .writer (mode = .pureMemory), ⟨_, p⟩⟩ rfl).setContent _
  · rw [Machine.tree_setContent, Machine.content_setContent_self]
    exact (toBytes_setLength_max _ _).symm

theorem matches_openForRead (hdecide : decide.Within Benign) (hzero : p.hasZeroByte = false)
    (h : Represents p s roles bytes) {on : Nat} :
    Matches p (s.step (fun _ => Posix.platform patience decide) (.openForRead on p)) .done
      (roles ++ [some .reader]) bytes := by
  obtain ⟨id, seats, hholds, hjournals, rfl, rfl⟩ := h
  apply matches_opened (f := fun _ => .done) (n := 0) hdecide hjournals
  intro r m' history hr
  unfold Session.openReader at hr
  rw [Posix.native_bind] at hr
  obtain ⟨opened, m₁, xs, ys, hopened, ⟨rfl, rfl, rfl⟩, rfl⟩ := ends_bind.mp hr
  obtain ⟨rfl, rfl⟩ := Posix.ends_openForRead_benign hzero hholds.named hopened
  exact ⟨rfl, hholds.openTarget ⟨on, .reader, ⟨_, p⟩⟩ rfl, rfl⟩

/-- A journal in a writer's role is open for writing, and knows its path. -/
theorem Holds.writer (h : Holds p id seats m) (hx : seats[j]? = some (some x))
    (hwrites : x.role.writes = true) :
    m.opened x.descriptor.number = some ⟨true, .file id⟩ ∧
      (x.role.handle p x.descriptor).path = some p := by
  refine ⟨?_, ?_⟩
  · rw [h.opened j x hx, Seat.file, hwrites]
  · cases hrole : x.role with
    | writer ephemeral => rfl
    | reader => simp [hrole, Role.writes] at hwrites

theorem matches_write (hdecide : decide.Within Benign) (h : Represents p s roles bytes)
    {block : Bytes} {offset : UInt64} (hj : (role? roles j).any Role.writes = true)
    (hrange : offset.toNat + block.length < Machine.offsetLimit) :
    Matches p (s.step (fun _ => Posix.platform patience decide) (.write j block offset)) .done
      roles (overwrite bytes offset.toNat block) := by
  obtain ⟨id, seats, hholds, hjournals, rfl, rfl⟩ := h
  obtain ⟨role, hrole, hwrites⟩ := Option.any_eq_true _ _ |>.mp hj
  obtain ⟨x, hx, rfl⟩ := seat_of_role hrole
  obtain ⟨hopen, -⟩ := hholds.writer hx hwrites
  apply matches_used hdecide hx hjournals
  intro r m' history hr
  obtain ⟨rfl, rfl⟩ := Posix.ends_write (Role.descriptor_handle _ _ _) hopen hrange hr
  refine ⟨rfl, hholds.setContent _, ?_⟩
  rw [Machine.tree_setContent, Machine.content_setContent_self, toBytes_overlay]

theorem matches_read (hdecide : decide.Within Benign) (h : Represents p s roles bytes)
    {buffer : Bytes} {offset : UInt64} (hj : role? roles j = some .reader)
    (hrange : offset.toNat + buffer.length < Machine.offsetLimit) :
    let got := window bytes offset.toNat buffer.length
    Matches p (s.step (fun _ => Posix.platform patience decide) (.read j buffer offset))
      (.transfer got.length (got ++ buffer.drop got.length)) roles bytes := by
  obtain ⟨id, seats, hholds, hjournals, rfl, rfl⟩ := h
  obtain ⟨x, hx, hrole⟩ := seat_of_role hj
  have hopen := hholds.opened j x hx
  rw [Seat.file, hrole] at hopen
  apply matches_used hdecide hx hjournals
  intro r m' history hr
  obtain ⟨rfl, rfl⟩ := Posix.ends_read (Role.descriptor_handle _ _ _) hopen hrange hr
  rw [window, ← Content.slice_eq]
  exact ⟨rfl, hholds, rfl⟩

theorem matches_truncate (hdecide : decide.Within Benign) (hzero : p.hasZeroByte = false)
    (h : Represents p s roles bytes) {size : UInt64}
    (hj : (role? roles j).any Role.writes = true) (hsize : size.toNat < Machine.offsetLimit) :
    Matches p (s.step (fun _ => Posix.platform patience decide) (.truncate j size)) .done
      roles (resize bytes size.toNat) := by
  obtain ⟨id, seats, hholds, hjournals, rfl, rfl⟩ := h
  obtain ⟨role, hrole, hwrites⟩ := Option.any_eq_true _ _ |>.mp hj
  obtain ⟨x, hx, rfl⟩ := seat_of_role hrole
  obtain ⟨hopen, hpath⟩ := hholds.writer hx hwrites
  apply matches_used hdecide hx hjournals
  intro r m' history hr
  -- the directory that is synced at the end is the one in which the file was found
  obtain ⟨rfl, hkeeps⟩ := Posix.ends_truncate (Role.descriptor_handle _ _ _) hpath hopen
    (Path.hasZeroByte_directory hzero) (FileTree.openExisting_directory hholds.named) hsize hr
  refine ⟨rfl, (hholds.setContent _).of_keeps hkeeps, ?_⟩
  rw [hkeeps.tree, Machine.tree_setContent, Machine.content_setContent_self, toBytes_setLength]

theorem matches_size (hdecide : decide.Within Benign) (h : Represents p s roles bytes)
    (hj : (role? roles j).isSome = true) :
    Matches p (s.step (fun _ => Posix.platform patience decide) (.size j)) (.number bytes.length)
      roles bytes := by
  obtain ⟨id, seats, hholds, hjournals, rfl, rfl⟩ := h
  obtain ⟨role, hrole⟩ := Option.isSome_iff_exists.mp hj
  obtain ⟨x, hx, rfl⟩ := seat_of_role hrole
  apply matches_used hdecide hx hjournals
  intro r m' history hr
  obtain ⟨rfl, rfl⟩ := Posix.ends_size (Role.descriptor_handle _ _ _) (hholds.opened j x hx) hr
  rw [Content.length_toBytes]
  exact ⟨rfl, hholds, rfl⟩

/-- Letting go of a journal whose file stays empties its seat, and leaves the file alone. -/
theorem Holds.ends_release (h : Holds p id seats m) (hx : seats[j]? = some (some x))
    (hstays : x.role.isEphemeral = false) {history : List (Happening System Event)}
    {r : Except JournalError Unit × Handle}
    (hr : CanEnd Benign
      (Posix.native patience ((x.role.handle p x.descriptor).release Features.posix)) m r m'
      history) :
    r.1 = .ok () ∧ Holds p id (seats.set j none) m' ∧ m'.tree = m.tree := by
  have hdelete : (x.role.handle p x.descriptor).deleteOnClose = false := by
    rw [Role.deleteOnClose_handle, hstays]
  obtain ⟨hok, rfl⟩ := Posix.ends_release (Role.descriptor_handle _ _ _) hdelete
    (h.opened j x hx) hr
  exact ⟨hok, h.forget hx, rfl⟩

theorem matches_close (hdecide : decide.Within Benign) (h : Represents p s roles bytes)
    (hj : (role? roles j).any (!·.isEphemeral) = true) :
    Matches p (s.step (fun _ => Posix.platform patience decide) (.close j)) .done
      (roles.set j none) bytes := by
  obtain ⟨id, seats, hholds, hjournals, rfl, rfl⟩ := h
  obtain ⟨role, hrole, hstays⟩ := Option.any_eq_true _ _ |>.mp hj
  obtain ⟨x, hx, rfl⟩ := seat_of_role hrole
  apply matches_ended hdecide hx hjournals
  intro r m' history hr
  rw [Handle.close_eq, Posix.native_bind] at hr
  obtain ⟨released, m₁, xs, ys, hreleased, ⟨rest, ⟨rfl, rfl, rfl⟩, rfl⟩, rfl⟩ := ends_bind.mp hr
  obtain ⟨hok, hheld, htree⟩ := hholds.ends_release hx (by simpa using hstays) hreleased
  rw [htree, hok]
  exact ⟨rfl, hheld, rfl⟩

theorem matches_drop (hdecide : decide.Within Benign) (h : Represents p s roles bytes)
    (hj : (role? roles j).any (!·.isEphemeral) = true) :
    Matches p (s.step (fun _ => Posix.platform patience decide) (.drop j)) .done
      (roles.set j none) bytes := by
  obtain ⟨id, seats, hholds, hjournals, rfl, rfl⟩ := h
  obtain ⟨role, hrole, hstays⟩ := Option.any_eq_true _ _ |>.mp hj
  obtain ⟨x, hx, rfl⟩ := seat_of_role hrole
  apply matches_ended hdecide hx hjournals
  intro r m' history hr
  unfold Handle.drop at hr
  rw [Posix.native_bind] at hr
  obtain ⟨⟨result, h'⟩, m₁, xs, ys, hreleased, hdone, rfl⟩ := ends_bind.mp hr
  obtain ⟨rfl, hheld, htree⟩ := hholds.ends_release hx (by simpa using hstays) hreleased
  obtain ⟨rfl, rfl, rfl⟩ := hdone
  rw [htree]
  exact ⟨rfl, hheld, rfl⟩

/-- One operation on a journal of the file agrees with the same operation on the list. -/
theorem matches_step (hdecide : decide.Within Benign) (hzero : p.hasZeroByte = false)
    (h : Represents p s roles bytes) (hop : Allowed p roles op) :
    Matches p (s.step (fun _ => Posix.platform patience decide) op) (answer bytes op)
      (rolesAfter roles op) (after bytes op) := by
  cases op with
  | openForWrite on q mode size support =>
    obtain ⟨rfl, hpos, hsize⟩ := hop
    exact matches_openForWrite hdecide hzero h hpos hsize
  | openForRead on q =>
    obtain rfl : q = p := hop
    exact matches_openForRead hdecide hzero h
  | write j block offset => exact matches_write hdecide h hop.1 hop.2
  | read j buffer offset => exact matches_read hdecide h hop.1 hop.2
  | truncate j size => exact matches_truncate hdecide hzero h hop.1 hop.2
  | size j => exact matches_size hdecide h hop
  | close j => exact matches_close hdecide h hop
  | drop j => exact matches_drop hdecide h hop

/-! ## Whole sessions -/

theorem run_matches (hdecide : decide.Within Benign) (hzero : p.hasZeroByte = false)
    (h : Represents p s roles bytes) {ops : List Operation} (hops : Admissible p roles ops) :
    (Session.run (fun _ => Posix.platform patience decide) s ops).map
        (fun r => (r.answer, (r.after.world.1.fileAt? p).map Content.toBytes)) =
      (run bytes ops).map fun x => (some (.ok x.1), some x.2) := by
  induction ops generalizing s roles bytes with
  | nil => rfl
  | cons op ops ih =>
    obtain ⟨hop, hrest⟩ := hops
    obtain ⟨hanswer, hafter⟩ := matches_step hdecide hzero h hop
    rw [Session.run, run, List.map_cons, List.map_cons, ih hafter hrest, hanswer, hafter.fileAt?]

end ByteFile

namespace Session

/-- A session with journals on one regular file, on a machine that splits transfers and rounds or
refuses preallocations as it likes, is answered as by a list of bytes, and after each operation
the file holds what the list does. -/
theorem refines_byteFile {φ : Type} (patience : Nat) {decide : Policy φ}
    (hdecide : decide.Within Benign) (m : Machine) (w : φ) {p : Path}
    (hzero : p.hasZeroByte = false) {c : Content} (hfile : m.fileAt? p = some c)
    {ops : List Operation} (hops : ByteFile.Admissible p [] ops) :
    (run (fun _ => Posix.platform patience decide) (start (m, w)) ops).map
        (fun r => (r.answer, (r.after.world.1.fileAt? p).map Content.toBytes)) =
      (ByteFile.run c.toBytes ops).map fun x => (some (.ok x.1), some x.2) :=
  ByteFile.run_matches hdecide hzero (ByteFile.represents_start hfile w) hops

/-- A system that moves two bytes at a time, preallocates too much for a file of six bytes, and
preallocates for no other. -/
def sparing : Policy Unit := fun c s =>
  match c with
  | .writeAt _ _ _ | .readAt _ _ _ => (.atMost 2, s)
  | .allocate _ n => (if n = 6 then .extendTo 11 else .fail Errno.notSupported, s)
  | _ => (.proceed, s)

theorem sparing_within : sparing.Within Benign := by
  intro c s
  cases c with
  | allocate d n =>
    by_cases hn : n = 6
    · simp [sparing, Benign, hn]
    · simp [sparing, Benign, hn, SystemError.isUnsupported, SystemError.code?]
  | _ => simp [sparing, Benign]

/-- A machine with a file of three bytes. -/
def threeBytes : Machine :=
  .ofTree (FileTree.empty.makeFile [[106]] (Content.ofBytes [1, 2, 3])).1 []

/-- Two writers, one of them ephemeral, and a reader that meets the end of the file. -/
theorem refines_byteFile_threeBytes :
    (run (fun _ => Posix.platform 0 sparing) (start (threeBytes, ()))
        [.openForWrite 0 ⟨[106]⟩ .durable 6 .supported, .openForRead 0 ⟨[106]⟩,
          .write 0 [7, 8, 9, 10, 11] 4, .openForWrite 0 ⟨[106]⟩ .pureMemory 11 .notSupported,
          .write 2 [5] 12, .read 1 [255, 255, 255, 255, 255] 10, .truncate 2 2, .close 0,
          .size 1]).map
        (fun r => (r.answer, (r.after.world.1.fileAt? ⟨[106]⟩).map Content.toBytes)) =
      [(some (.ok (.number 6)), some [1, 2, 3, 0, 0, 0]),
        (some (.ok .done), some [1, 2, 3, 0, 0, 0]),
        (some (.ok .done), some [1, 2, 3, 0, 7, 8, 9, 10, 11]),
        (some (.ok (.number 11)), some [1, 2, 3, 0, 7, 8, 9, 10, 11, 0, 0]),
        (some (.ok .done), some [1, 2, 3, 0, 7, 8, 9, 10, 11, 0, 0, 0, 5]),
        (some (.ok (.transfer 3 [0, 0, 5, 255, 255])),
          some [1, 2, 3, 0, 7, 8, 9, 10, 11, 0, 0, 0, 5]),
        (some (.ok .done), some [1, 2]), (some (.ok .done), some [1, 2]),
        (some (.ok (.number 2)), some [1, 2])] := by
  have hfile : threeBytes.fileAt? ⟨[106]⟩ = some (Content.ofBytes [1, 2, 3]) := rfl
  exact refines_byteFile 0 sparing_within threeBytes () (by decide) hfile (by decide)

end Session

end WriteAhead
