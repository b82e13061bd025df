/-
# Removing a name

What a tree answers for a path after an entry was removed from it, and what a path leads to when
the entry itself is to be removed: the last link of the path is then not followed, which opening
the path does.

* `inspectEntry_of_unlink` : a path names an entry before it is unlinked, and none afterwards;
* `resolve_remove_of_visit` : unlinking and opening part ways only at a link.
-/
import WriteAhead.Proofs.Naming

namespace WriteAhead

namespace FileTree

variable {t t' : FileTree} {purpose : Purpose} {ends b : Bool} {budget : Nat} {dir d k : Location}
  {names rest : List Name} {n : Name} {e : Entry} {target : Path} {f : Found}

/-! ## A tree without one entry -/

/-- A walk in a tree without an entry is the walk in the whole tree, unless it comes to where the
entry was. -/
theorem walk_erase (t : FileTree) (k : Location) (purpose : Purpose) (ends : Bool)
    (dir : Location) (names : List Name) :
    (t.erase k).walk purpose ends dir names = t.walk purpose ends dir names ∨
      (t.erase k).walk purpose ends dir names = .failed Errno.noEntry ∨
        ∃ d n, n :: d = k ∧
          (t.erase k).walk purpose ends dir names = .found (.absent d n ends) := by
  induction names generalizing dir with
  | nil => exact .inl rfl
  | cons m rest ih =>
    simp only [walk]
    split
    · exact ih dir
    split
    · exact ih dir.tail
    split
    · exact .inl rfl
    split
    · exact .inl rfl
    rw [find_erase _ _ _ (by simp)]
    by_cases hk : m :: dir = k
    · rw [if_pos hk]
      by_cases hrest : rest = []
      · exact .inr (.inr ⟨dir, m, hk, by rw [if_pos hrest]⟩)
      · exact .inr (.inl (by rw [if_neg hrest]))
    · rw [if_neg hk]
      cases t.find (m :: dir) with
      | none => exact .inl rfl
      | some e =>
        cases e with
        | directory =>
          by_cases hrest : rest = []
          · exact .inl (by simp [hrest])
          · simp only [hrest, if_false]
            exact ih (m :: dir)
        | file id => exact .inl rfl
        | link target => exact .inl rfl

theorem follow_erase (t : FileTree) (k : Location) (purpose : Purpose) (budget : Nat) (ends : Bool)
    (dir : Location) (names : List Name) :
    (t.erase k).follow purpose budget ends dir names = t.follow purpose budget ends dir names ∨
      (t.erase k).follow purpose budget ends dir names = .error Errno.noEntry ∨
        ∃ d n b, n :: d = k ∧
          (t.erase k).follow purpose budget ends dir names = .ok (.absent d n b) := by
  induction budget generalizing ends dir names with
  | zero =>
    rcases walk_erase t k purpose ends dir names with hw | hw | ⟨d, n, hk, hw⟩
    · left
      unfold follow
      rw [hw]
    · right; left
      unfold follow
      rw [hw]
    · exact .inr (.inr ⟨d, n, ends, hk, follow_of_walk hw⟩)
  | succ budget ih =>
    rcases walk_erase t k purpose ends dir names with hw | hw | ⟨d, n, hk, hw⟩
    · unfold follow
      rw [hw]
      split
      · exact .inl rfl
      · exact .inl rfl
      · exact ih _ _ _
    · right; left
      unfold follow
      rw [hw]
    · exact .inr (.inr ⟨d, n, ends, hk, follow_of_walk hw⟩)

variable {cwd : Location} {p : Path}

theorem resolve_erase (t : FileTree) (k : Location) (purpose : Purpose) (cwd : Location)
    (p : Path) :
    (t.erase k).resolve purpose cwd p = t.resolve purpose cwd p ∨
      (t.erase k).resolve purpose cwd p = .error Errno.noEntry ∨
        ∃ d n b, n :: d = k ∧ (t.erase k).resolve purpose cwd p = .ok (.absent d n b) := by
  unfold resolve
  split
  · exact .inl rfl
  split
  · exact .inl rfl
  · exact follow_erase t k purpose _ _ _ _

/-! ## What a path leads to is there -/

theorem find_of_walk (h : t.walk purpose ends dir names = .found (.entry d n e b)) :
    t.find (n :: d) = some e := by
  induction names generalizing dir with
  | nil => exact absurd h (by simp [walk])
  | cons m rest ih =>
    rcases walk_cons t purpose ends dir m rest with ⟨dir', hw⟩ | ⟨code, hw⟩ | ⟨-, -, -, hw⟩ |
      ⟨e', -, -, hfind, hw⟩ | ⟨target, -, -, hw⟩
    · exact ih (hw.symm.trans h)
    · exact absurd (hw.symm.trans h) (by simp)
    · exact absurd (hw.symm.trans h) (by simp)
    · obtain ⟨rfl, rfl, rfl, -⟩ := Found.entry.inj (Stop.found.inj (hw.symm.trans h))
      exact hfind
    · exact absurd (hw.symm.trans h) (by simp)

theorem find_of_follow (h : t.follow purpose budget ends dir names = .ok (.entry d n e b)) :
    t.find (n :: d) = some e := by
  induction budget generalizing ends dir names with
  | zero => exact find_of_walk (walk_of_follow_zero h)
  | succ budget ih =>
    rcases walk_of_follow_succ h with hw | ⟨at_, target, rest, -, hnext⟩
    · exact find_of_walk hw
    · exact ih hnext

theorem find_of_resolve (h : t.resolve purpose cwd p = .ok (.entry d n e b)) :
    t.find (n :: d) = some e :=
  find_of_follow (resolve_eq_ok_iff.mp h).2

/-! ## Removing, looking and opening -/

/-- A link in a walk that does not follow the last one has more names after it. -/
theorem rest_ne_nil_of_walk (hlast : purpose.followsLast ends = false)
    (h : t.walk purpose ends dir names = .link d target rest) : rest ≠ [] := by
  induction names generalizing dir with
  | nil => exact absurd h (by simp [walk])
  | cons m more ih =>
    rcases walk_cons t purpose ends dir m more with ⟨dir', hw⟩ | ⟨code, hw⟩ | ⟨-, -, -, hw⟩ |
      ⟨e, -, -, -, hw⟩ | ⟨target', hmore, -, hw⟩
    · exact ih (hw.symm.trans h)
    · exact absurd (hw.symm.trans h) (by simp)
    · exact absurd (hw.symm.trans h) (by simp)
    · exact absurd (hw.symm.trans h) (by simp)
    · obtain ⟨-, -, rfl⟩ := Stop.link.inj (hw.symm.trans h)
      exact fun hnil => hmore ⟨hnil, hlast⟩

theorem walk_inspect (t : FileTree) (dir : Location) (names : List Name) :
    t.walk .inspect false dir names = t.walk .remove false dir names := by
  induction names generalizing dir with
  | nil => rfl
  | cons n rest ih => simp only [walk, ih, Purpose.followsLast]; simp

/-- Looking and removing are led the same way by a path that does not claim to name a
directory. -/
theorem follow_inspect (t : FileTree) (budget : Nat) (dir : Location) (names : List Name) :
    t.follow .inspect budget false dir names = t.follow .remove budget false dir names := by
  induction budget generalizing dir names with
  | zero => unfold follow; rw [walk_inspect]
  | succ budget ih =>
    unfold follow
    rw [walk_inspect]
    split
    · rfl
    · rfl
    · next hw =>
      have hrest := rest_ne_nil_of_walk rfl hw
      simpa [hrest] using ih _ _

theorem resolve_inspect (hp : p.endsInSeparator = false) :
    t.resolve .inspect cwd p = t.resolve .remove cwd p := by
  unfold resolve
  rw [hp, follow_inspect]

/-- A walk to an entry that is to be removed is the walk to what is there, or it stops at a link
that the other follows. -/
theorem walk_remove (t : FileTree) (ends : Bool) (dir : Location) (names : List Name) :
    t.walk .remove ends dir names = t.walk .visit ends dir names ∨
      ∃ d n target, t.walk .remove ends dir names = .found (.entry d n (.link target) ends) := by
  induction names generalizing dir with
  | nil => exact .inl rfl
  | cons m rest ih =>
    simp only [walk, reduceCtorEq, false_and, and_false, if_false, Purpose.followsLast]
    split
    · exact ih dir
    split
    · exact ih dir.tail
    split
    · exact .inl rfl
    cases t.find (m :: dir) with
    | none => exact .inl rfl
    | some e =>
      cases e with
      | directory =>
        by_cases hrest : rest = []
        · exact .inl (by simp [hrest])
        · simp only [hrest, if_false]
          exact ih (m :: dir)
      | file id => exact .inl rfl
      | link target =>
        by_cases hrest : rest = []
        · exact .inr ⟨dir, m, target, by simp [hrest]⟩
        · exact .inl (by simp [hrest])

/-- Where a path leads when what is there is opened, it leads when the entry is to be removed,
unless this entry is a link. -/
theorem follow_remove_of_visit (h : t.follow .visit budget ends dir names = .ok f) :
    t.follow .remove budget ends dir names = .ok f ∨
      ∃ d n target b,
        t.follow .remove budget ends dir names = .ok (.entry d n (.link target) b) := by
  induction budget generalizing ends dir names with
  | zero =>
    rcases walk_remove t ends dir names with hw | ⟨d, n, target, hw⟩
    · exact .inl (follow_of_walk (hw.trans (walk_of_follow_zero h)))
    · exact .inr ⟨d, n, target, ends, follow_of_walk hw⟩
  | succ budget ih =>
    rcases walk_remove t ends dir names with hw | ⟨d, n, target, hw⟩
    · rcases walk_of_follow_succ h with hvisit | ⟨at_, target, rest, hvisit, hnext⟩
      · exact .inl (follow_of_walk (hw.trans hvisit))
      · rw [follow_of_walk_link (hw.trans hvisit)]
        exact ih hnext
    · exact .inr ⟨d, n, target, ends, follow_of_walk hw⟩

/-- The path names a symbolic link itself. -/
def NamesLink (t : FileTree) (cwd : Location) (p : Path) : Prop :=
  ∃ d n target b, t.resolve .remove cwd p = .ok (.entry d n (.link target) b)

theorem resolve_remove_of_visit (h : t.resolve .visit cwd p = .ok f) :
    t.resolve .remove cwd p = .ok f ∨ t.NamesLink cwd p := by
  obtain ⟨hp, hfollow⟩ := resolve_eq_ok_iff.mp h
  rcases follow_remove_of_visit hfollow with hremove | ⟨d, n, target, b, hremove⟩
  · exact .inl (resolve_eq_ok_iff.mpr ⟨hp, hremove⟩)
  · exact .inr ⟨d, n, target, b, resolve_eq_ok_iff.mpr ⟨hp, hremove⟩⟩

/-- Where a path leads to an entry that is to be removed, and that is no link, it leads when what is
there is opened. -/
theorem follow_visit_of_remove (h : t.follow .remove budget ends dir names = .ok f)
    (hf : ∀ d n target b, f ≠ .entry d n (.link target) b) :
    t.follow .visit budget ends dir names = .ok f := by
  induction budget generalizing ends dir names with
  | zero =>
    rcases walk_remove t ends dir names with hw | ⟨d, n, target, hw⟩
    · exact follow_of_walk (hw.symm.trans (walk_of_follow_zero h))
    · exact absurd (Except.ok.inj (h.symm.trans (follow_of_walk hw))) (hf _ _ _ _)
  | succ budget ih =>
    rcases walk_remove t ends dir names with hw | ⟨d, n, target, hw⟩
    · rcases walk_of_follow_succ h with hremove | ⟨at_, target, rest, hremove, hnext⟩
      · exact follow_of_walk (hw.symm.trans hremove)
      · rw [follow_of_walk_link (hw.symm.trans hremove)]
        exact ih hnext
    · exact absurd (Except.ok.inj (h.symm.trans (follow_of_walk hw))) (hf _ _ _ _)

/-- A file whose name can be removed is the one that the path leads to. -/
theorem openExisting_of_resolve_remove {id : FileId}
    (h : t.resolve .remove cwd p = .ok (.entry d n (.file id) false)) :
    t.openExisting cwd p = .ok (.file id) := by
  obtain ⟨hp, hfollow⟩ := resolve_eq_ok_iff.mp h
  have hvisit := follow_visit_of_remove hfollow (by simp)
  exact openExisting_of_resolve (resolve_eq_ok_iff.mpr ⟨hp, hvisit⟩)

/-! ## Unlinking -/

/-- What an unlink removes: the entry that the path names itself, which is no directory and is not
claimed to be one. -/
theorem unlink_eq_ok_iff : t.unlink cwd p = .ok t' ↔
    ∃ d n e, t.resolve .remove cwd p = .ok (.entry d n e false) ∧ e ≠ .directory ∧
      t' = t.erase (n :: d) := by
  unfold unlink
  constructor
  · intro h
    split at h
    · exact absurd h (by simp)
    · exact absurd h (by simp)
    · exact absurd h (by simp)
    · exact absurd h (by simp)
    · next d n e ends hdirectory hr =>
      cases ends with
      | true => exact absurd h (by simp)
      | false => exact ⟨d, n, e, hr, hdirectory, by simpa using h.symm⟩
  · rintro ⟨d, n, e, hr, he, rfl⟩
    rw [hr]
    cases e with
    | directory => exact absurd rfl he
    | link target => rfl
    | file id => rfl

/-- A path that ends in a separator claims that what it leads to is a directory. -/
theorem endsInSeparator_of_resolve (h : t.resolve purpose cwd p = .ok f)
    (hf : f.claimsDirectory = false) : p.endsInSeparator = false := by
  obtain ⟨-, hfollow⟩ := resolve_eq_ok_iff.mp h
  cases hp : p.endsInSeparator with
  | false => rfl
  | true =>
    rw [hp] at hfollow
    exact absurd (claimsDirectory_of_follow hfollow) (by simp [hf])

/-- A path names an entry before it is unlinked, and none afterwards. -/
theorem inspectEntry_of_unlink (h : t.unlink cwd p = .ok t') :
    t.inspectEntry cwd p = .ok () ∧ t'.inspectEntry cwd p = .error Errno.noEntry := by
  obtain ⟨d, n, e, hr, he, rfl⟩ := unlink_eq_ok_iff.mp h
  have hp := endsInSeparator_of_resolve hr rfl
  have hinspect : t.resolve .inspect cwd p = .ok (.entry d n e false) :=
    (resolve_inspect hp).trans hr
  constructor
  · unfold inspectEntry
    rw [hinspect]
    cases e <;> rfl
  · unfold inspectEntry
    rcases resolve_erase t (n :: d) .inspect cwd p with hsame | hnone | ⟨d', n', b, -, habsent⟩
    · -- the entry that the path leads to would still be there
      have hfind := find_of_resolve (hsame.trans hinspect)
      rw [find_erase _ _ _ (by simp), if_pos rfl] at hfind
      exact absurd hfind (by simp)
    · rw [hnone]
    · rw [habsent]

theorem find_erase_of_ne {l : Location} (hl : l ≠ k) : (t.erase k).find l = t.find l := by
  by_cases hroot : l = []
  · subst hroot
    rw [find_root, find_root]
  · rw [find_erase _ _ _ hroot, if_neg hl]

/-- An unlink makes no entry. -/
theorem find_of_unlink (h : t.unlink cwd p = .ok t') {l : Location} (hl : t'.find l ≠ none) :
    t.find l = t'.find l := by
  obtain ⟨d, n, e, -, -, rfl⟩ := unlink_eq_ok_iff.mp h
  have hne : l ≠ n :: d := by
    rintro rfl
    exact hl (by rw [find_erase _ _ _ (by simp), if_pos rfl])
  exact (find_erase_of_ne hne).symm

/-- An unlink takes no name from a file that the path does not lead to. -/
theorem find_file_of_unlink (h : t.unlink cwd p = .ok t') {l : Location} {id : FileId}
    (hl : t.find l = some (.file id)) (hopen : t.openExisting cwd p ≠ .ok (.file id)) :
    t'.find l = some (.file id) := by
  obtain ⟨d, n, e, hr, -, rfl⟩ := unlink_eq_ok_iff.mp h
  have hne : l ≠ n :: d := by
    rintro rfl
    obtain rfl : e = .file id := Option.some.inj ((find_of_resolve hr).symm.trans hl)
    exact hopen (openExisting_of_resolve_remove hr)
  rw [find_erase_of_ne hne, hl]

theorem content_of_unlink (h : t.unlink cwd p = .ok t') (id : FileId) :
    t'.content id = t.content id := by
  obtain ⟨d, n, e, -, -, rfl⟩ := unlink_eq_ok_iff.mp h
  rfl

end FileTree

end WriteAhead
