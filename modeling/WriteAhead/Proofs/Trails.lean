/-
# The trail of a path

To follow a path, the entries at certain locations are looked up, one after the other: its trail.
What else there is in the tree makes no difference to where the path leads.

Main statements:

* `resolve_congr_of_trail` : a path leads to the same in trees that agree along its trail;
* `resolve_erase_of_notMem` : an entry that is not on the trail can be erased;
* `notMem_trail_of_file` : no file is on the trail, unless the path leads to it;
* `notMem_trail_of_namesFile` : two paths that name two files keep out of each other's way.
-/
import WriteAhead.Proofs.Directory
import WriteAhead.Proofs.Unlinking

namespace WriteAhead

namespace FileTree

variable {t t' : FileTree} {purpose : Purpose} {ends : Bool} {budget : Nat} {dir l : Location}
  {names : List Name} {cwd : Location} {p : Path} {f : Found} {id : FileId}

/-! ## What is looked up -/

/-- The locations that are looked up in a walk along names, up to the first link that is to be
followed. -/
def walkTrail (t : FileTree) (purpose : Purpose) (ends : Bool) :
    Location → List Name → List Location
  | _, [] => []
  | dir, n :: rest =>
    if n = [Path.dot] then walkTrail t purpose ends dir rest
    else if n = [Path.dot, Path.dot] then walkTrail t purpose ends dir.tail rest
    else if rest = [] ∧ purpose = .make ∧ ends then []
    else if nameLimit < n.length then []
    else
      (n :: dir) ::
        if t.find (n :: dir) = some .directory then walkTrail t purpose ends (n :: dir) rest else []

/-- The locations that are looked up along names and through at most `budget` links. -/
def followTrail (t : FileTree) (purpose : Purpose) :
    (budget : Nat) → (ends : Bool) → Location → List Name → List Location
  | budget, ends, dir, names =>
    t.walkTrail purpose ends dir names ++
      match t.walk purpose ends dir names with
      | .found _ | .failed _ => []
      | .link at_ target rest =>
        match budget with
        | 0 => []
        | budget + 1 =>
          followTrail t purpose budget (ends || (rest = [] && target.endsInSeparator))
            (startOf target at_) (target.names ++ rest)

/-- The locations that are looked up to resolve a path. -/
def trail (t : FileTree) (purpose : Purpose) (cwd : Location) (p : Path) : List Location :=
  if p.bytes = [] ∨ pathLimit < p.bytes.length then []
  else t.followTrail purpose linkLimit p.endsInSeparator (startOf p cwd) p.names

/-! ## Trees that agree along a trail -/

theorem walk_congr_of_trail {dir : Location} {names : List Name}
    (h : ∀ l ∈ t.walkTrail purpose ends dir names, t'.find l = t.find l) :
    t'.walk purpose ends dir names = t.walk purpose ends dir names ∧
      t'.walkTrail purpose ends dir names = t.walkTrail purpose ends dir names := by
  induction names generalizing dir with
  | nil => exact ⟨rfl, rfl⟩
  | cons n rest ih =>
    simp only [walk, walkTrail] at h ⊢
    split
    · next hdot =>
      rw [if_pos hdot] at h
      exact ih h
    next hdot =>
    rw [if_neg hdot] at h
    split
    · next hdots =>
      rw [if_pos hdots] at h
      exact ih h
    next hdots =>
    rw [if_neg hdots] at h
    split
    · exact ⟨rfl, rfl⟩
    next hmake =>
    rw [if_neg hmake] at h
    split
    · exact ⟨rfl, rfl⟩
    next hlong =>
    rw [if_neg hlong] at h
    have hhere : t'.find (n :: dir) = t.find (n :: dir) := h _ List.mem_cons_self
    rw [hhere]
    by_cases hdirectory : t.find (n :: dir) = some .directory
    · rw [if_pos hdirectory] at h
      obtain ⟨hwalk, htrail⟩ := ih fun l hl => h l (List.mem_cons_of_mem _ hl)
      simp only [hdirectory, if_true, hwalk, htrail, and_self]
    · simp only [if_neg hdirectory, and_true]
      cases hfind : t.find (n :: dir) with
      | none => rfl
      | some e =>
        cases e with
        | directory => exact absurd hfind hdirectory
        | file id => rfl
        | link target => rfl

theorem follow_congr_of_trail {dir : Location} {names : List Name}
    (h : ∀ l ∈ t.followTrail purpose budget ends dir names, t'.find l = t.find l) :
    t'.follow purpose budget ends dir names = t.follow purpose budget ends dir names ∧
      t'.followTrail purpose budget ends dir names =
        t.followTrail purpose budget ends dir names := by
  induction budget generalizing ends dir names with
  | zero =>
    unfold followTrail at h
    obtain ⟨hwalk, htrail⟩ := walk_congr_of_trail fun l hl => h l (List.mem_append_left _ hl)
    unfold follow followTrail
    rw [hwalk, htrail]
    exact ⟨rfl, rfl⟩
  | succ budget ih =>
    unfold followTrail at h
    obtain ⟨hwalk, htrail⟩ := walk_congr_of_trail fun l hl => h l (List.mem_append_left _ hl)
    unfold follow followTrail
    rw [hwalk, htrail]
    cases hstop : t.walk purpose ends dir names with
    | found f => exact ⟨rfl, rfl⟩
    | failed code => exact ⟨rfl, rfl⟩
    | link at_ target rest =>
      rw [hstop] at h
      obtain ⟨hfollow, hrest⟩ := ih fun l hl => h l (List.mem_append_right _ hl)
      exact ⟨hfollow, congrArg _ hrest⟩

/-- A path leads to the same, by the same trail, in trees that agree along it. -/
theorem resolve_congr_of_trail (h : ∀ l ∈ t.trail purpose cwd p, t'.find l = t.find l) :
    t'.resolve purpose cwd p = t.resolve purpose cwd p ∧
      t'.trail purpose cwd p = t.trail purpose cwd p := by
  unfold trail at h ⊢
  unfold resolve
  by_cases hempty : p.bytes = []
  · simp [hempty]
  by_cases hlong : pathLimit < p.bytes.length
  · simp [hlong]
  · simp only [hempty, hlong, or_self, if_false] at h ⊢
    exact follow_congr_of_trail h

/-- An entry that is not on the trail of a path can be erased. -/
theorem resolve_erase_of_notMem (h : l ∉ t.trail purpose cwd p) :
    (t.erase l).resolve purpose cwd p = t.resolve purpose cwd p ∧
      (t.erase l).trail purpose cwd p = t.trail purpose cwd p := by
  refine resolve_congr_of_trail fun k hk => find_erase_of_ne ?_
  rintro rfl
  exact h hk

/-- The contents of files are of no account on a trail. -/
theorem trail_setContent (t : FileTree) (id : FileId) (c : Content) (purpose : Purpose)
    (cwd : Location) (p : Path) :
    (t.setContent id c).trail purpose cwd p = t.trail purpose cwd p :=
  (resolve_congr_of_trail fun l _ => find_setContent t id c l).2

/-! ## What is on a trail -/

/-- The location that a path leads to, if it is a named one. -/
def Found.location? : Found → Option Location
  | .unnamed _ => none
  | .entry d n _ _ | .absent d n _ => some (n :: d)

/-- A file that is looked up in a walk is where the walk ends. -/
theorem location?_of_mem_walkTrail {dir : Location} {names : List Name}
    (hl : l ∈ t.walkTrail purpose ends dir names) (hfile : t.find l = some (.file id)) :
    (∃ f, t.walk purpose ends dir names = .found f ∧ f.location? = some l) ∨
      ∃ code, t.walk purpose ends dir names = .failed code := by
  induction names generalizing dir with
  | nil => exact absurd hl (by simp [walkTrail])
  | cons n rest ih =>
    simp only [walk, walkTrail] at hl ⊢
    split
    · next hdot =>
      rw [if_pos hdot] at hl
      exact ih hl
    next hdot =>
    rw [if_neg hdot] at hl
    split
    · next hdots =>
      rw [if_pos hdots] at hl
      exact ih hl
    next hdots =>
    rw [if_neg hdots] at hl
    split
    · exact .inr ⟨_, rfl⟩
    next hmake =>
    rw [if_neg hmake] at hl
    split
    · exact .inr ⟨_, rfl⟩
    next hlong =>
    rw [if_neg hlong] at hl
    rcases List.mem_cons.mp hl with rfl | hl
    · -- the file is here, so the walk does not go on
      rw [hfile]
      by_cases hrest : rest = []
      · exact .inl ⟨_, if_pos hrest, rfl⟩
      · exact .inr ⟨_, if_neg hrest⟩
    · by_cases hdirectory : t.find (n :: dir) = some .directory
      · rw [if_pos hdirectory] at hl
        have hrest : rest ≠ [] := by
          rintro rfl
          exact absurd hl (by simp [walkTrail])
        simp only [hdirectory, if_neg hrest]
        exact ih hl
      · rw [if_neg hdirectory] at hl
        exact absurd hl (by simp)

theorem location?_of_mem_followTrail {dir : Location} {names : List Name}
    (hl : l ∈ t.followTrail purpose budget ends dir names) (hfile : t.find l = some (.file id))
    (h : t.follow purpose budget ends dir names = .ok f) : f.location? = some l := by
  have hwalk : ∀ {ends dir names}, l ∈ t.walkTrail purpose ends dir names →
      (∀ at_ target rest, t.walk purpose ends dir names ≠ .link at_ target rest) ∧
      ∀ f, t.walk purpose ends dir names = .found f → f.location? = some l := by
    intro ends dir names hl
    rcases location?_of_mem_walkTrail hl hfile with ⟨g, hg, hlocation⟩ | ⟨code, hcode⟩
    · rw [hg]
      exact ⟨by simp, fun f hf => Stop.found.inj hf ▸ hlocation⟩
    · rw [hcode]
      exact ⟨by simp, by simp⟩
  induction budget generalizing ends dir names with
  | zero =>
    have hfound := walk_of_follow_zero h
    unfold followTrail at hl
    rw [hfound, List.append_nil] at hl
    exact (hwalk hl).2 f hfound
  | succ budget ih =>
    unfold followTrail at hl
    rcases walk_of_follow_succ h with hfound | ⟨at_, target, rest, hlink, hnext⟩
    · rw [hfound, List.append_nil] at hl
      exact (hwalk hl).2 f hfound
    · rw [hlink] at hl
      rcases List.mem_append.mp hl with hl | hl
      · exact absurd hlink ((hwalk hl).1 at_ target rest)
      · exact ih hl hnext

/-- No file is on the trail of a path that leads anywhere but to this file itself. -/
theorem notMem_trail_of_file (hfile : t.find l = some (.file id))
    (h : t.resolve purpose cwd p = .ok f) (hf : f.location? ≠ some l) :
    l ∉ t.trail purpose cwd p := by
  intro hl
  obtain ⟨⟨hempty, hlong⟩, hfollow⟩ := resolve_eq_ok_iff.mp h
  have hwithin : ¬ (p.bytes = [] ∨ pathLimit < p.bytes.length) := by
    rintro (hnil | hlt)
    · exact hempty hnil
    · exact absurd hlt (Nat.not_lt_of_le hlong)
  unfold trail at hl
  rw [if_neg hwithin] at hl
  exact hf (location?_of_mem_followTrail hl hfile hfollow)

/-! ## Paths that name files -/

/-- The path names a file at the location `l`: the file itself, and no link to it. -/
def NamesFile (t : FileTree) (cwd : Location) (p : Path) (l : Location) : Prop :=
  ∃ d n id, t.resolve .remove cwd p = .ok (.entry d n (.file id) false) ∧ l = n :: d

theorem location?_of_openExisting (h : t.openExisting cwd p = .ok .directory) :
    ∃ f, t.resolve .visit cwd p = .ok f ∧
      ∀ l, f.location? = some l → t.find l = some .directory := by
  unfold openExisting at h
  split at h
  · exact absurd h (by simp)
  · next dir hr => exact ⟨_, hr, fun l hl => absurd hl (by simp [Found.location?])⟩
  · exact absurd h (by simp)
  · next d n b hr =>
    refine ⟨_, hr, fun l hl => ?_⟩
    obtain rfl : n :: d = l := Option.some.inj hl
    exact find_of_resolve hr
  · next d n id ends hr => cases ends <;> exact absurd h (by simp)
  · exact absurd h (by simp)

/-- The location of a file is looked up neither along a path that names another file, nor along the
directory of that path. -/
theorem notMem_trail_of_namesFile {q : Path} {k : Location} (hp : t.NamesFile cwd p k)
    (hq : t.NamesFile cwd q l) (hne : l ≠ k) :
    l ∉ t.trail .remove cwd p ∧ l ∉ t.trail .visit cwd p.directory := by
  obtain ⟨d, n, id, hresolve, rfl⟩ := hp
  obtain ⟨d', n', id', hresolve', rfl⟩ := hq
  have hfile : t.find (n' :: d') = some (.file id') := find_of_resolve hresolve'
  have hdirectory : t.openExisting cwd p.directory = .ok .directory :=
    openExisting_directory (openExisting_of_resolve_remove hresolve)
  obtain ⟨g, hg, hat⟩ := location?_of_openExisting hdirectory
  constructor
  · refine notMem_trail_of_file hfile hresolve fun hlocation => ?_
    exact hne (Option.some.inj hlocation).symm
  · refine notMem_trail_of_file hfile hg fun hlocation => ?_
    rw [hat _ hlocation] at hfile
    exact absurd hfile (by simp)

end FileTree

end WriteAhead
