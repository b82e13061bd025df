/-
# What a path names

How a tree answers for one path when the path is wanted for different things, and before and
after a change.

* `openOrMake_of_openExisting` : a file that can be opened is found when it is to be made;
* `openExisting_of_openOrMake` : a file that was found or made can be opened afterwards.
-/
import WriteAhead.FileTree.Change

namespace WriteAhead

namespace FileTree

variable {t t' : FileTree} {dir d : Location} {names : List Name} {n : Name} {e : Entry}
  {ends b : Bool} {budget : Nat}

/-! ## Only the entries matter -/

theorem walk_congr (h : ∀ l, t'.find l = t.find l) (purpose : Purpose) (ends : Bool)
    (dir : Location) (names : List Name) :
    t'.walk purpose ends dir names = t.walk purpose ends dir names := by
  induction names generalizing dir with
  | nil => rfl
  | cons n rest ih => simp only [walk, h, ih]

theorem follow_congr (h : ∀ l, t'.find l = t.find l) (purpose : Purpose) (budget : Nat)
    (ends : Bool) (dir : Location) (names : List Name) :
    t'.follow purpose budget ends dir names = t.follow purpose budget ends dir names := by
  induction budget generalizing ends dir names with
  | zero => unfold follow; rw [walk_congr h]
  | succ budget ih =>
    unfold follow
    rw [walk_congr h]
    split
    · rfl
    · rfl
    · exact ih _ _ _

/-- A path leads to the same in trees with the same entries. -/
theorem resolve_congr (h : ∀ l, t'.find l = t.find l) (purpose : Purpose) (cwd : Location)
    (p : Path) : t'.resolve purpose cwd p = t.resolve purpose cwd p := by
  unfold resolve
  rw [follow_congr h]

@[simp] theorem resolve_setContent (t : FileTree) (id : FileId) (c : Content) (purpose : Purpose)
    (cwd : Location) (p : Path) :
    (t.setContent id c).resolve purpose cwd p = t.resolve purpose cwd p :=
  resolve_congr (find_setContent t id c) purpose cwd p

@[simp] theorem openExisting_setContent (t : FileTree) (id : FileId) (c : Content)
    (cwd : Location) (p : Path) :
    (t.setContent id c).openExisting cwd p = t.openExisting cwd p := by
  unfold openExisting
  rw [resolve_setContent]

/-! ## From walks to paths -/

variable {purpose : Purpose} {f : Found} {target : Path} {rest : List Name}

/-- What a walk does at a name: it goes on to the next one, fails, or stops there.  A name that is
last may not claim to be a directory where a file is to be made. -/
theorem walk_cons (t : FileTree) (purpose : Purpose) (ends : Bool) (dir : Location) (n : Name)
    (rest : List Name) :
    (∃ dir', t.walk purpose ends dir (n :: rest) = t.walk purpose ends dir' rest) ∨
      (∃ code, t.walk purpose ends dir (n :: rest) = .failed code) ∨
      (rest = [] ∧ ¬ (purpose = .make ∧ ends = true) ∧ t.find (n :: dir) = none ∧
        t.walk purpose ends dir (n :: rest) = .found (.absent dir n ends)) ∨
      (∃ e, rest = [] ∧ ¬ (purpose = .make ∧ ends = true) ∧ t.find (n :: dir) = some e ∧
        t.walk purpose ends dir (n :: rest) = .found (.entry dir n e ends)) ∨
      ∃ target, ¬ (rest = [] ∧ purpose.followsLast ends = false) ∧
        t.find (n :: dir) = some (.link target) ∧
        t.walk purpose ends dir (n :: rest) = .link dir target rest := by
  simp only [walk]
  split
  · exact .inl ⟨dir, rfl⟩
  split
  · exact .inl ⟨dir.tail, rfl⟩
  split
  · exact .inr (.inl ⟨_, rfl⟩)
  split
  · exact .inr (.inl ⟨_, rfl⟩)
  next hmake _ =>
    by_cases hrest : rest = []
    · subst hrest
      have hmake : ¬ (purpose = .make ∧ ends = true) := fun h => hmake ⟨rfl, h⟩
      cases hfind : t.find (n :: dir) with
      | none => exact .inr (.inr (.inl ⟨rfl, hmake, rfl, rfl⟩))
      | some e =>
        cases e with
        | directory => exact .inr (.inr (.inr (.inl ⟨_, rfl, hmake, rfl, rfl⟩)))
        | file id => exact .inr (.inr (.inr (.inl ⟨_, rfl, hmake, rfl, rfl⟩)))
        | link target =>
          by_cases hlast : purpose.followsLast ends = false
          · exact .inr (.inr (.inr (.inl ⟨_, rfl, hmake, rfl, by simp [hlast]⟩)))
          · exact .inr (.inr (.inr (.inr ⟨target, fun h => hlast h.2, rfl, by simp [hlast]⟩)))
    · cases hfind : t.find (n :: dir) with
      | none => exact .inr (.inl ⟨_, if_neg hrest⟩)
      | some e =>
        cases e with
        | directory => exact .inl ⟨n :: dir, if_neg hrest⟩
        | file id => exact .inr (.inl ⟨_, if_neg hrest⟩)
        | link target =>
          exact .inr (.inr (.inr (.inr
            ⟨target, fun h => hrest h.1, rfl, if_neg fun h => hrest h.1⟩)))

theorem follow_of_walk (h : t.walk purpose ends dir names = .found f) :
    t.follow purpose budget ends dir names = .ok f := by
  unfold follow
  rw [h]

theorem follow_of_walk_link (h : t.walk purpose ends dir names = .link d target rest) :
    t.follow purpose (budget + 1) ends dir names =
      t.follow purpose budget (ends || (rest = [] && target.endsInSeparator))
        (startOf target d) (target.names ++ rest) := by
  rw [follow, h]

theorem walk_of_follow_zero (h : t.follow purpose 0 ends dir names = .ok f) :
    t.walk purpose ends dir names = .found f := by
  unfold follow at h
  split at h
  · next hw => rw [hw, Except.ok.inj h]
  · exact absurd h (by simp)
  · exact absurd h (by simp)

/-- A path leads where its walk ends, or where the first link on it leads. -/
theorem walk_of_follow_succ (h : t.follow purpose (budget + 1) ends dir names = .ok f) :
    t.walk purpose ends dir names = .found f ∨
      ∃ d target rest, t.walk purpose ends dir names = .link d target rest ∧
        t.follow purpose budget (ends || (rest = [] && target.endsInSeparator))
          (startOf target d) (target.names ++ rest) = .ok f := by
  unfold follow at h
  split at h
  · next hw => exact .inl (by rw [hw, Except.ok.inj h])
  · exact absurd h (by simp)
  · next hw => exact .inr ⟨_, _, _, hw, h⟩

/-! ## Visiting and making -/

/-- A walk along a path that does not claim to name a directory is the same for both purposes. -/
theorem walk_make (t : FileTree) (dir : Location) (names : List Name) :
    t.walk .make false dir names = t.walk .visit false dir names := by
  induction names generalizing dir with
  | nil => rfl
  | cons n rest ih => simp only [walk, ih, Purpose.followsLast]; simp

/-- What a path leads to is claimed to be a directory: by a separator at the end, or because it is
reached without a name. -/
def Found.claimsDirectory : Found → Bool
  | .unnamed _ => true
  | .entry _ _ _ ends | .absent _ _ ends => ends

theorem claimsDirectory_of_walk (h : t.walk purpose ends dir names = .found f) :
    (∃ l, f = .unnamed l) ∨ f.claimsDirectory = ends := by
  induction names generalizing dir with
  | nil =>
    injection h with h
    exact .inl ⟨dir, h.symm⟩
  | cons m rest ih =>
    -- only at the last name does a walk end, and there the claim is `ends`
    rcases walk_cons t purpose ends dir m rest with ⟨dir', hw⟩ | ⟨code, hw⟩ | ⟨-, -, -, hw⟩ |
      ⟨e, -, -, -, hw⟩ | ⟨target, -, -, hw⟩
    · exact ih (hw.symm.trans h)
    · exact absurd (hw.symm.trans h) (by simp)
    · exact .inr (Stop.found.inj (hw.symm.trans h) ▸ rfl)
    · exact .inr (Stop.found.inj (hw.symm.trans h) ▸ rfl)
    · exact absurd (hw.symm.trans h) (by simp)

/-- The claim to name a directory is never taken back on the way. -/
theorem claimsDirectory_of_follow (h : t.follow purpose budget true dir names = .ok f) :
    f.claimsDirectory = true := by
  have hwalk : ∀ {dir names}, t.walk purpose true dir names = .found f →
      f.claimsDirectory = true := by
    intro dir names hw
    rcases claimsDirectory_of_walk hw with ⟨l, rfl⟩ | hf
    · rfl
    · exact hf
  induction budget generalizing dir names with
  | zero => exact hwalk (walk_of_follow_zero h)
  | succ budget ih =>
    rcases walk_of_follow_succ h with hw | ⟨d', target, rest, -, hnext⟩
    · exact hwalk hw
    · exact ih hnext

/-- A path that claims to name a directory cannot lead to the place for a file. -/
theorem unnamed_of_walk_make (h : t.walk .make true dir names = .found f) :
    ∃ l, f = .unnamed l := by
  induction names generalizing dir with
  | nil =>
    injection h with h
    exact ⟨dir, h.symm⟩
  | cons m rest ih =>
    rcases walk_cons t .make true dir m rest with ⟨dir', hw⟩ | ⟨code, hw⟩ | ⟨-, hmake, -, -⟩ |
      ⟨e, -, hmake, -, -⟩ | ⟨target, -, -, hw⟩
    · exact ih (hw.symm.trans h)
    · exact absurd (hw.symm.trans h) (by simp)
    · exact absurd ⟨rfl, rfl⟩ hmake
    · exact absurd ⟨rfl, rfl⟩ hmake
    · exact absurd (hw.symm.trans h) (by simp)

theorem unnamed_of_follow_make (h : t.follow .make budget true dir names = .ok f) :
    ∃ l, f = .unnamed l := by
  induction budget generalizing dir names with
  | zero => exact unnamed_of_walk_make (walk_of_follow_zero h)
  | succ budget ih =>
    rcases walk_of_follow_succ h with hw | ⟨d', target, rest, -, hnext⟩
    · exact unnamed_of_walk_make hw
    · exact ih hnext

/-- What a path leads to without a claim that it is a directory, it leads to for both purposes. -/
theorem follow_make_of_visit (h : t.follow .visit budget ends dir names = .ok f)
    (hf : f.claimsDirectory = false) : t.follow .make budget ends dir names = .ok f := by
  induction budget generalizing ends dir names with
  | zero =>
    cases ends with
    | true => exact absurd (claimsDirectory_of_follow h) (by simp [hf])
    | false => exact follow_of_walk ((walk_make t dir names).trans (walk_of_follow_zero h))
  | succ budget ih =>
    cases ends with
    | true => exact absurd (claimsDirectory_of_follow h) (by simp [hf])
    | false =>
      -- both purposes meet the same link, and go on from its target
      rcases walk_of_follow_succ h with hw | ⟨d', target, rest, hw, hnext⟩
      · exact follow_of_walk ((walk_make t dir names).trans hw)
      · rw [follow_of_walk_link ((walk_make t dir names).trans hw)]
        exact ih hnext

/-- Where a path for a file leads, it leads as a path to what is there, and without a claim that
this is a directory. -/
theorem follow_visit_of_make (h : t.follow .make budget ends dir names = .ok f)
    (hf : ∀ l, f ≠ .unnamed l) :
    t.follow .visit budget ends dir names = .ok f ∧ f.claimsDirectory = false := by
  have hwalk : ∀ {dir names}, t.walk .make false dir names = .found f →
      f.claimsDirectory = false := by
    intro dir names hw
    rcases claimsDirectory_of_walk hw with ⟨l, hl⟩ | hclaim
    · exact absurd hl (hf l)
    · exact hclaim
  induction budget generalizing ends dir names with
  | zero =>
    cases ends with
    | true => exact absurd (unnamed_of_follow_make h) (by simpa using hf)
    | false =>
      have hw := walk_of_follow_zero h
      exact ⟨follow_of_walk ((walk_make t dir names).symm.trans hw), hwalk hw⟩
  | succ budget ih =>
    cases ends with
    | true => exact absurd (unnamed_of_follow_make h) (by simpa using hf)
    | false =>
      rcases walk_of_follow_succ h with hw | ⟨d', target, rest, hw, hnext⟩
      · exact ⟨follow_of_walk ((walk_make t dir names).symm.trans hw), hwalk hw⟩
      · rw [follow_of_walk_link ((walk_make t dir names).symm.trans hw)]
        exact ih hnext

/-! ## A tree that has more -/

/-- Everything that `t` has, `t'` has in the same place. -/
def Extends (t t' : FileTree) : Prop := ∀ l, t.find l ≠ none → t'.find l = t.find l

/-- A walk that ends at an entry or passes a link does so in a tree that has more. -/
theorem walk_extends (hext : t.Extends t') {ends : Bool} {dir : Location} {names : List Name} :
    (∀ d n e b, t.walk purpose ends dir names = .found (.entry d n e b) →
      t'.walk purpose ends dir names = .found (.entry d n e b)) ∧
    (∀ d target rest, t.walk purpose ends dir names = .link d target rest →
      t'.walk purpose ends dir names = .link d target rest) ∧
    ∀ d n b, t.walk purpose ends dir names = .found (.absent d n b) →
      t.find (n :: d) = none ∧ ∀ id, t'.find (n :: d) = some (.file id) →
        t'.walk purpose ends dir names = .found (.entry d n (.file id) b) := by
  induction names generalizing dir with
  | nil => simp [walk]
  | cons m rest ih =>
    simp only [walk]
    split
    · exact ih
    split
    · exact ih
    split
    · simp
    split
    · simp
    cases hm : t.find (m :: dir) with
    | none =>
      -- what is absent may be there in `t'`, but only as the file that the third part allows
      by_cases hrest : rest = []
      · subst hrest
        simp +contextual [hm]
      · simp [hrest]
    | some x =>
      rw [hext _ (by simp [hm]), hm]
      cases x with
      | directory =>
        by_cases hrest : rest = []
        · simp [hrest]
        · simp only [hrest, if_false]
          exact ih
      | file id => by_cases hrest : rest = [] <;> simp [hrest]
      | link target =>
        by_cases hlast : rest = [] ∧ purpose.followsLast ends = false <;> simp [hlast]

theorem follow_extends (hext : t.Extends t') :
    (∀ d n e b, t.follow purpose budget ends dir names = .ok (.entry d n e b) →
      t'.follow purpose budget ends dir names = .ok (.entry d n e b)) ∧
    ∀ d n b, t.follow purpose budget ends dir names = .ok (.absent d n b) →
      t.find (n :: d) = none ∧ ∀ id, t'.find (n :: d) = some (.file id) →
        t'.follow purpose budget ends dir names = .ok (.entry d n (.file id) b) := by
  induction budget generalizing ends dir names with
  | zero =>
    obtain ⟨hentry, -, habsent⟩ := walk_extends hext
    refine ⟨fun d n e b h => ?_, fun d n b h => ?_⟩
    · have hw := walk_of_follow_zero h
      exact follow_of_walk (hentry d n e b hw)
    · have hw := walk_of_follow_zero h
      exact ⟨(habsent d n b hw).1, fun id hid => follow_of_walk ((habsent d n b hw).2 id hid)⟩
  | succ budget ih =>
    obtain ⟨hentry, hlink, habsent⟩ := walk_extends hext
    refine ⟨fun d n e b h => ?_, fun d n b h => ?_⟩
    · rcases walk_of_follow_succ h with hw | ⟨at_, target, rest, hw, hnext⟩
      · exact follow_of_walk (hentry d n e b hw)
      · rw [follow_of_walk_link (hlink _ _ _ hw)]
        exact ih.1 d n e b hnext
    · rcases walk_of_follow_succ h with hw | ⟨at_, target, rest, hw, hnext⟩
      · exact ⟨(habsent d n b hw).1, fun id hid => follow_of_walk ((habsent d n b hw).2 id hid)⟩
      · rw [follow_of_walk_link (hlink _ _ _ hw)]
        exact ih.2 d n b hnext

/-! ## Opening -/

variable {cwd : Location} {p : Path} {id : FileId}

theorem resolve_eq_ok_iff : t.resolve purpose cwd p = .ok f ↔
    (p.bytes ≠ [] ∧ p.bytes.length ≤ pathLimit) ∧
      t.follow purpose linkLimit p.endsInSeparator (startOf p cwd) p.names = .ok f := by
  unfold resolve
  by_cases hp : p.bytes = []
  · simp [hp]
  · by_cases hlong : pathLimit < p.bytes.length
    · simp [hp, hlong, Nat.not_le_of_lt hlong]
    · simp [hp, hlong, Nat.le_of_not_lt hlong]

theorem resolve_make_of_visit (h : t.resolve .visit cwd p = .ok f)
    (hf : f.claimsDirectory = false) : t.resolve .make cwd p = .ok f := by
  obtain ⟨hp, hfollow⟩ := resolve_eq_ok_iff.mp h
  exact resolve_eq_ok_iff.mpr ⟨hp, follow_make_of_visit hfollow hf⟩

theorem resolve_visit_of_make (h : t.resolve .make cwd p = .ok f) (hf : ∀ l, f ≠ .unnamed l) :
    t.resolve .visit cwd p = .ok f ∧ f.claimsDirectory = false := by
  obtain ⟨hp, hfollow⟩ := resolve_eq_ok_iff.mp h
  obtain ⟨hvisit, hclaim⟩ := follow_visit_of_make hfollow hf
  exact ⟨resolve_eq_ok_iff.mpr ⟨hp, hvisit⟩, hclaim⟩

theorem openExisting_of_resolve (h : t.resolve .visit cwd p = .ok (.entry d n (.file id) false)) :
    t.openExisting cwd p = .ok (.file id) := by
  unfold openExisting
  rw [h]
  rfl

theorem resolve_of_openExisting (h : t.openExisting cwd p = .ok (.file id)) :
    ∃ d n, t.resolve .visit cwd p = .ok (.entry d n (.file id) false) := by
  unfold openExisting at h
  split at h
  · exact absurd h (by simp)
  · exact absurd h (by simp)
  · exact absurd h (by simp)
  · exact absurd h (by simp)
  · next d n id' ends hr =>
    cases ends with
    | true => exact absurd h (by simp)
    | false =>
      obtain rfl : id' = id := by simpa using h
      exact ⟨d, n, hr⟩
  · exact absurd h (by simp)

/-- A file that can be opened is found when it is to be made, and nothing is changed. -/
theorem openOrMake_of_openExisting (h : t.openExisting cwd p = .ok (.file id)) :
    t.openOrMake cwd p = .ok (id, t) := by
  obtain ⟨d, n, hr⟩ := resolve_of_openExisting h
  unfold openOrMake
  rw [resolve_make_of_visit hr rfl]

theorem find_makeFile (t : FileTree) (n : Name) (d l : Location) (c : Content) :
    (t.makeFile (n :: d) c).1.find l =
      if l = n :: d then some (.file t.nextFile) else t.find l := by
  by_cases hl : l = []
  · subst hl
    rw [if_neg (by simp), find_root, find_root]
  · show ((t.setContent t.nextFile c).insert (n :: d) (.file t.nextFile)).find l = _
    rw [find_insert _ _ _ _ hl, find_setContent]

/-- A path that leads to a free name leads to the file that is made there. -/
theorem resolve_makeFile (h : t.resolve purpose cwd p = .ok (.absent d n b)) (c : Content) :
    t.find (n :: d) = none ∧
      (t.makeFile (n :: d) c).1.resolve purpose cwd p =
        .ok (.entry d n (.file t.nextFile) b) := by
  obtain ⟨hp, hfollow⟩ := resolve_eq_ok_iff.mp h
  have hfree : t.find (n :: d) = none := ((follow_extends (fun _ _ => rfl)).2 d n b hfollow).1
  -- the new name was free, so the tree that has it extends the one before
  have hext : t.Extends (t.makeFile (n :: d) c).1 := by
    intro l hl
    have hne : l ≠ n :: d := by
      rintro rfl
      exact hl hfree
    rw [find_makeFile, if_neg hne]
  have hnew : (t.makeFile (n :: d) c).1.find (n :: d) = some (.file t.nextFile) := by
    rw [find_makeFile, if_pos rfl]
  have hfollow' := ((follow_extends hext).2 d n b hfollow).2 _ hnew
  exact ⟨hfree, resolve_eq_ok_iff.mpr ⟨hp, hfollow'⟩⟩

/-- A file is found where it can be opened, or made at the free name that the path leads to. -/
theorem openOrMake_cases (h : t.openOrMake cwd p = .ok (id, t')) :
    (t' = t ∧ t.openExisting cwd p = .ok (.file id)) ∨
      ∃ d n, t.resolve .visit cwd p = .ok (.absent d n false) ∧
        t' = (t.makeFile (n :: d) Content.empty).1 ∧ id = t.nextFile := by
  unfold openOrMake at h
  split at h
  · exact absurd h (by simp)
  · exact absurd h (by simp)
  · next d n b hr =>
    obtain ⟨hv, hb⟩ := resolve_visit_of_make hr (by simp)
    obtain rfl : b = false := hb
    obtain ⟨rfl, rfl⟩ := Prod.mk.inj (Except.ok.inj h)
    exact .inr ⟨d, n, hv, rfl, rfl⟩
  · exact absurd h (by simp)
  · next d n id' b hr =>
    obtain ⟨hv, hb⟩ := resolve_visit_of_make hr (by simp)
    obtain rfl : b = false := hb
    obtain ⟨rfl, rfl⟩ := Prod.mk.inj (Except.ok.inj h)
    exact .inl ⟨rfl, openExisting_of_resolve hv⟩
  · exact absurd h (by simp)

/-- A file that was found or made can be opened, and a tree is left as it is unless the file was
absent and is now empty. -/
theorem openExisting_of_openOrMake (h : t.openOrMake cwd p = .ok (id, t')) :
    t'.openExisting cwd p = .ok (.file id) ∧
      (t' = t ∨ (t.readFile? cwd p = none ∧ t'.content id = Content.empty)) := by
  rcases openOrMake_cases h with ⟨rfl, hopen⟩ | ⟨d, n, hv, rfl, rfl⟩
  · exact ⟨hopen, .inl rfl⟩
  · have hread : t.readFile? cwd p = none := by
      unfold readFile? openExisting
      rw [hv]
    have hcontent : (t.makeFile (n :: d) Content.empty).1.content t.nextFile = Content.empty := by
      simp [makeFile, content_insert, content_setContent]
    exact ⟨openExisting_of_resolve (resolve_makeFile hv _).2, .inr ⟨hread, hcontent⟩⟩

/-- The content of a file that was found or made. -/
theorem content_of_openOrMake (h : t.openOrMake cwd p = .ok (id, t')) :
    t'.content id = (t.readFile? cwd p).getD Content.empty := by
  obtain ⟨hopen, rfl | ⟨hread, hcontent⟩⟩ := openExisting_of_openOrMake h
  · unfold readFile?
    rw [hopen]
    rfl
  · rw [hread, hcontent]
    rfl

/-! ## Reading at a path -/

theorem readFile?_of_openExisting (h : t.openExisting cwd p = .ok (.file id)) :
    t.readFile? cwd p = some (t.content id) := by
  unfold readFile?
  rw [h]

theorem openExisting_of_readFile? {c : Content} (h : t.readFile? cwd p = some c) :
    ∃ id, t.openExisting cwd p = .ok (.file id) ∧ t.content id = c := by
  unfold readFile? at h
  split at h
  · next id hopen => exact ⟨id, hopen, Option.some.inj h⟩
  · exact absurd h (by simp)

theorem readFile?_setContent (h : t.openExisting cwd p = .ok (.file id)) (c : Content) :
    (t.setContent id c).readFile? cwd p = some c := by
  have hopen : (t.setContent id c).openExisting cwd p = .ok (.file id) := by
    rw [openExisting_setContent, h]
  rw [readFile?_of_openExisting hopen, content_setContent, if_pos rfl]

end FileTree

end WriteAhead
