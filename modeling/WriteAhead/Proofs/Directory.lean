/-
# The directory of a file

A path that leads to a regular file passes through its `Path.directory`: the text of the directory
spells a first part of the names of the path, so that the directory can be opened.

* `Path.directory_spells` : the directory, dots, the name of the file and dots spell the path;
* `Path.directory_cases` : the directory is the working directory or a first part of the path;
* `FileTree.follow_append` : a path is followed through what any first part of it leads to.
-/
import WriteAhead.Proofs.Naming

namespace WriteAhead

namespace Path

/-! ## Names of texts -/

/-- The names that a text is walked by. -/
def namesOf (text : Bytes) : List Name := (segments text).filter (· ≠ [])

@[simp] theorem segments_nil : segments [] = [[]] := rfl

theorem segments_separator_cons (rest : Bytes) :
    segments (separator :: rest) = [] :: segments rest := by
  rw [segments, if_pos rfl]

theorem segments_cons {b : UInt8} {rest : Bytes} {s : Name} {more : List Name}
    (hb : b ≠ separator) (hs : segments rest = s :: more) :
    segments (b :: rest) = (b :: s) :: more := by
  rw [segments, if_neg hb, hs]

theorem segments_ne_nil (text : Bytes) : segments text ≠ [] := by
  induction text with
  | nil => simp
  | cons b rest ih =>
    by_cases hb : b = separator
    · rw [hb, segments_separator_cons]
      simp
    · obtain ⟨s, more, hs⟩ := List.exists_cons_of_ne_nil ih
      rw [segments_cons hb hs]
      simp

/-- A separator parts the segments before it from those after it. -/
theorem segments_append_separator (xs ys : Bytes) :
    segments (xs ++ separator :: ys) = segments xs ++ segments ys := by
  induction xs with
  | nil => exact segments_separator_cons ys
  | cons b xs ih =>
    rw [List.cons_append]
    by_cases hb : b = separator
    · rw [hb, segments_separator_cons, segments_separator_cons, ih, List.cons_append]
    · obtain ⟨s, more, hs⟩ := List.exists_cons_of_ne_nil (segments_ne_nil xs)
      rw [hs, List.cons_append] at ih
      rw [segments_cons hb hs, segments_cons hb ih, List.cons_append]

theorem namesOf_append_separator (xs ys : Bytes) :
    namesOf (xs ++ separator :: ys) = namesOf xs ++ namesOf ys := by
  unfold namesOf
  rw [segments_append_separator, List.filter_append]

@[simp] theorem namesOf_nil : namesOf [] = [] := rfl

theorem namesOf_separator_cons (ys : Bytes) : namesOf (separator :: ys) = namesOf ys :=
  namesOf_append_separator [] ys

@[simp] theorem namesOf_dot : namesOf [dot] = [[dot]] := by decide

theorem segments_of_not_mem {text : Bytes} (h : separator ∉ text) : segments text = [text] := by
  induction text with
  | nil => rfl
  | cons b rest ih =>
    have hb : b ≠ separator := fun hb => h (hb ▸ List.mem_cons_self)
    exact segments_cons hb (ih fun hm => h (List.mem_cons_of_mem b hm))

/-- A text without separators is one name. -/
theorem namesOf_of_not_mem {text : Bytes} (h : separator ∉ text) (hne : text ≠ []) :
    namesOf text = [text] := by
  unfold namesOf
  rw [segments_of_not_mem h]
  simp [hne]

/-! ## Cutting from the end -/

/-- The names are single dots, which lead from nowhere to nowhere else. -/
def AreDots (names : List Name) : Prop := ∀ n ∈ names, n = [dot]

theorem areDots_nil : AreDots [] := by simp [AreDots]

theorem areDots_dot : AreDots [[dot]] := by simp [AreDots]

theorem AreDots.append {xs ys : List Name} (hx : AreDots xs) (hy : AreDots ys) :
    AreDots (xs ++ ys) := by
  intro n hn
  rcases List.mem_append.mp hn with hn | hn
  · exact hx n hn
  · exact hy n hn

/-- Dropping from the end takes away dots at most. -/
theorem namesOf_dropEmpty (body : Bytes) :
    ∃ dots, AreDots dots ∧ namesOf body.reverse = namesOf (dropEmpty body).reverse ++ dots := by
  fun_induction dropEmpty body with
  | case1 => exact ⟨[], areDots_nil, rfl⟩
  | case2 rest ih =>
    obtain ⟨dots, hall, hdots⟩ := ih
    refine ⟨dots, hall, ?_⟩
    rw [List.reverse_cons, namesOf_append_separator, hdots, namesOf_nil, List.append_nil]
  | case3 h => exact ⟨[[dot]], areDots_dot, rfl⟩
  | case4 more h ih =>
    obtain ⟨dots, hall, hdots⟩ := ih
    refine ⟨dots ++ [[dot]], hall.append areDots_dot, ?_⟩
    rw [List.reverse_cons, List.reverse_cons, List.append_assoc, List.singleton_append,
      namesOf_append_separator, hdots, namesOf_dot, List.append_assoc]
  | case5 c more h hc => exact ⟨[], areDots_nil, (List.append_nil _).symm⟩
  | case6 b rest h hb => exact ⟨[], areDots_nil, (List.append_nil _).symm⟩

theorem dropEmpty_suffix (body : Bytes) : dropEmpty body <:+ body := by
  fun_induction dropEmpty body with
  | case1 => exact List.suffix_rfl
  | case2 rest ih => exact ih.trans (List.suffix_cons _ _)
  | case3 h => exact List.nil_suffix
  | case4 more h ih => exact ih.trans ((List.suffix_cons _ _).trans (List.suffix_cons _ _))
  | case5 c more h hc => exact List.suffix_rfl
  | case6 b rest h hb => exact List.suffix_rfl

theorem head?_dropEmpty (body : Bytes) : (dropEmpty body).head? ≠ some separator := by
  fun_induction dropEmpty body with
  | case1 => simp
  | case2 rest ih => exact ih
  | case3 h => simp
  | case4 more h ih => exact ih
  | case5 c more h hc => simpa using hc
  | case6 b rest h hb => simpa using h

theorem cutLast_suffix (body : Bytes) : cutLast body <:+ body := by
  unfold cutLast
  exact (dropEmpty_suffix _).trans ((List.drop_suffix _ _).trans (List.dropWhile_suffix _))

/-- Cutting off the last component takes away one name and the dots before it. -/
theorem namesOf_cutLast {body : Bytes} (hne : body ≠ []) (hhead : body.head? ≠ some separator) :
    ∃ dots n, AreDots dots ∧
      namesOf body.reverse = namesOf (cutLast body).reverse ++ (dots ++ [n]) := by
  have hlast : separator ∉ body.takeWhile (· ≠ separator) := by
    intro hmem
    have hall := List.all_takeWhile (p := (· ≠ separator)) (l := body)
    simpa using List.all_eq_true.mp hall separator hmem
  have hlast_ne : body.takeWhile (· ≠ separator) ≠ [] := by
    cases body with
    | nil => exact absurd rfl hne
    | cons b rest =>
      have hb : b ≠ separator := by simpa using hhead
      simp [hb]
  -- the last component is one name, and what is before it begins after a separator
  have hname : namesOf (body.takeWhile (· ≠ separator)).reverse =
      [(body.takeWhile (· ≠ separator)).reverse] :=
    namesOf_of_not_mem (by simpa using hlast) (by simpa using hlast_ne)
  have hbody := List.takeWhile_append_dropWhile (p := (· ≠ separator)) (l := body)
  generalize body.takeWhile (· ≠ separator) = last at *
  unfold cutLast
  cases hrest : body.dropWhile (· ≠ separator) with
  | nil =>
    rw [hrest, List.append_nil] at hbody
    refine ⟨[], last.reverse, areDots_nil, ?_⟩
    rw [← hbody, hname]
    rfl
  | cons b rest =>
    obtain rfl : b = separator := by
      have hb := List.head?_dropWhile_not (· ≠ separator) body
      rw [hrest] at hb
      simpa using hb
    obtain ⟨dots, hall, hdots⟩ := namesOf_dropEmpty rest
    rw [hrest] at hbody
    refine ⟨dots, last.reverse, hall, ?_⟩
    rw [← hbody, List.reverse_append, List.reverse_cons, List.append_assoc,
      List.singleton_append, namesOf_append_separator, hname, hdots, List.append_assoc]
    rfl

/-! ## The directory -/

/-- What no cut removes from before a text: nothing, a root separator, or a dot with a separator or
the end after it. -/
def IsHead (head text : Bytes) : Prop :=
  head = [] ∨ head = [separator] ∨
    head = [dot] ∧ ∀ c more, text = c :: more → c = separator

theorem isHead_take_drop (p : Path) :
    IsHead (p.bytes.take p.headLength) (p.bytes.drop p.headLength) := by
  unfold headLength
  cases hbytes : p.bytes with
  | nil => exact .inl rfl
  | cons b rest =>
    simp only
    split
    · next hb => exact .inr (.inl (by simp [hb]))
    · split
      · next hb =>
        obtain ⟨hb, hrest⟩ := hb
        refine .inr (.inr ⟨by simp [hb], fun c more hdrop => ?_⟩)
        rcases hrest with rfl | hrest
        · exact absurd hdrop (by simp)
        · obtain rfl : rest = c :: more := hdrop
          simpa using hrest
      · exact .inl (by simp)

namespace IsHead

variable {head text gone : Bytes}

/-- A head before a text is one before its beginning. -/
theorem of_append (h : IsHead head (text ++ gone)) : IsHead head text := by
  rcases h with h | h | ⟨h, hnext⟩
  · exact .inl h
  · exact .inr (.inl h)
  · refine .inr (.inr ⟨h, fun c more hc => hnext c (more ++ gone) ?_⟩)
    rw [hc, List.cons_append]

/-- The names of a head and of what follows it in a path. -/
theorem namesOf_append (h : IsHead head text) :
    namesOf (head ++ text) = namesOf head ++ namesOf text := by
  rcases h with rfl | rfl | ⟨rfl, hnext⟩
  · rfl
  · exact namesOf_append_separator [] text
  · cases text with
    | nil => simp
    | cons c more =>
      obtain rfl := hnext c more rfl
      rw [namesOf_separator_cons]
      exact namesOf_append_separator [dot] more

theorem areDots (h : IsHead head text) : AreDots (namesOf head) := by
  rcases h with rfl | rfl | ⟨rfl, -⟩
  · exact areDots_nil
  · rw [namesOf_separator_cons]
    exact areDots_nil
  · rw [namesOf_dot]
    exact areDots_dot

end IsHead

/-- A path whose head is empty starts where it is walked from. -/
theorem isAbsolute_eq_false {p : Path} (h : p.bytes.take p.headLength = []) :
    p.isAbsolute = false := by
  unfold headLength at h
  unfold isAbsolute
  cases hbytes : p.bytes with
  | nil => rfl
  | cons b rest =>
    rw [hbytes] at h
    have hb : b ≠ separator := by
      rintro rfl
      simp at h
    simpa using hb

theorem directory_of_dropEmpty_nil {p : Path}
    (h : dropEmpty (p.bytes.drop p.headLength).reverse = []) : p.directory = here := by
  unfold directory parent
  rw [h]
  by_cases hdot : p.bytes.take p.headLength = [dot] <;> simp [hdot]

theorem directory_of_dropEmpty_ne_nil {p : Path} {body : Bytes}
    (h : dropEmpty (p.bytes.drop p.headLength).reverse = body) (hne : body ≠ []) :
    (p.directory = here ∧ p.bytes.take p.headLength ++ (cutLast body).reverse = []) ∨
      p.directory = ⟨p.bytes.take p.headLength ++ (cutLast body).reverse⟩ := by
  unfold directory parent
  rw [h]
  cases body with
  | nil => exact absurd rfl hne
  | cons b rest =>
    show ((if _ = empty then here else _) = here ∧ _) ∨ (if _ = empty then here else _) = _
    split
    · next hempty => exact .inl ⟨rfl, congrArg Path.bytes hempty⟩
    · exact .inr rfl

/-- What the cuts leave of a text is its beginning. -/
theorem exists_eq_cutLast_append (text : Bytes) :
    ∃ gone, text = (cutLast (dropEmpty text.reverse)).reverse ++ gone := by
  obtain ⟨gone, hgone⟩ := (cutLast_suffix _).trans (dropEmpty_suffix text.reverse)
  refine ⟨gone.reverse, ?_⟩
  rw [← List.reverse_append, hgone, List.reverse_reverse]

/-- The names of a text from which something can be cut: those of what is left, and one name with
dots around it. -/
theorem namesOf_eq_cutLast_append {text : Bytes} (h : dropEmpty text.reverse ≠ []) :
    ∃ dots n dots', AreDots dots ∧ AreDots dots' ∧
      namesOf text =
        namesOf (cutLast (dropEmpty text.reverse)).reverse ++ (dots ++ n :: dots') := by
  obtain ⟨dots', hall', hdots'⟩ := namesOf_dropEmpty text.reverse
  obtain ⟨dots, n, hall, hnames⟩ := namesOf_cutLast h (head?_dropEmpty _)
  refine ⟨dots, n, dots', hall, hall', ?_⟩
  rw [List.reverse_reverse] at hdots'
  rw [hdots', hnames]
  simp only [List.append_assoc, List.singleton_append]

/-- What the directory of a path is: the working directory, for a path that consists of dots or of
one name among them, and otherwise a first part of the path by its text and by its names, which
leaves one name and dots around it. -/
theorem directory_spells (p : Path) :
    (p.directory = here ∧ AreDots p.names) ∨
      ∃ dots n dots', AreDots dots ∧ AreDots dots' ∧
        ((p.directory = here ∧ p.isAbsolute = false ∧ p.names = dots ++ n :: dots') ∨
          (∃ rest, p.bytes = p.directory.bytes ++ rest) ∧
            p.names = p.directory.names ++ (dots ++ n :: dots')) := by
  have hhead := isHead_take_drop p
  have hbytes : p.bytes = p.bytes.take p.headLength ++ p.bytes.drop p.headLength :=
    (List.take_append_drop _ _).symm
  have hsplit : p.names =
      namesOf (p.bytes.take p.headLength) ++ namesOf (p.bytes.drop p.headLength) := by
    rw [← hhead.namesOf_append, ← hbytes]
    rfl
  by_cases hbody : dropEmpty (p.bytes.drop p.headLength).reverse = []
  · obtain ⟨dots, hall, hdots⟩ := namesOf_dropEmpty (p.bytes.drop p.headLength).reverse
    rw [List.reverse_reverse, hbody] at hdots
    refine .inl ⟨directory_of_dropEmpty_nil hbody, ?_⟩
    rw [hsplit, hdots]
    exact hhead.areDots.append hall
  obtain ⟨dots, n, dots', hall, hall', hnames⟩ := namesOf_eq_cutLast_append hbody
  refine .inr ⟨dots, n, dots', hall, hall', ?_⟩
  rcases directory_of_dropEmpty_ne_nil rfl hbody with ⟨hhere, hnone⟩ | hdirectory
  · obtain ⟨hnohead, hnocut⟩ := List.append_eq_nil_iff.mp hnone
    refine .inl ⟨hhere, isAbsolute_eq_false hnohead, ?_⟩
    rw [hsplit, hnames, hnohead, hnocut]
    rfl
  · obtain ⟨gone, hgone⟩ := exists_eq_cutLast_append (p.bytes.drop p.headLength)
    refine .inr ⟨⟨gone, ?_⟩, ?_⟩
    · rw [hdirectory, List.append_assoc, ← hgone]
      exact hbytes
    · have hhead' : IsHead (p.bytes.take p.headLength)
          (cutLast (dropEmpty (p.bytes.drop p.headLength).reverse)).reverse := by
        rw [hgone] at hhead
        exact hhead.of_append
      rw [hsplit, hnames, hdirectory, ← List.append_assoc, ← hhead'.namesOf_append]
      rfl

/-- The directory of a path is the working directory, or a first part of the path by its text and
by its names. -/
theorem directory_cases (p : Path) :
    p.directory = here ∨
      (∃ rest, p.bytes = p.directory.bytes ++ rest) ∧
        ∃ cut, cut ≠ [] ∧ p.names = p.directory.names ++ cut := by
  rcases p.directory_spells with ⟨hhere, -⟩ | ⟨dots, n, dots', -, -, ⟨hhere, -⟩ | ⟨hrest, hnames⟩⟩
  · exact .inl hhere
  · exact .inl hhere
  · exact .inr ⟨hrest, _, by simp, hnames⟩

end Path

namespace FileTree

variable {t : FileTree} {purpose : Purpose} {dir dir' : Location} {xs ys : List Name} {f : Found}
  {budget : Nat} {ends ends' : Bool}

/-! ## Following a path through a directory -/

/-- Where two walks are the same, so is what follows them. -/
theorem follow_congr_of_walk (h : t.walk purpose ends dir xs = t.walk purpose ends dir' ys) :
    t.follow purpose budget ends dir xs = t.follow purpose budget ends dir' ys := by
  unfold follow
  rw [h]

/-- The directory that a path leads to, if it does. -/
def Found.directory? : Found → Option Location
  | .unnamed l => some l
  | .entry d n .directory _ => some (n :: d)
  | _ => none

/-- A walk goes on from the directory that a first part of it ends at, or stops where that part
stops. -/
theorem walk_append (t : FileTree) (purpose : Purpose) (dir : Location) (xs : List Name)
    (hys : ys ≠ []) (ends ends' : Bool) :
    (∃ g l, t.walk .visit ends' dir xs = .found g ∧ g.directory? = some l ∧
        t.walk purpose ends dir (xs ++ ys) = t.walk purpose ends l ys) ∨
      (∃ d target rest, t.walk .visit ends' dir xs = .link d target rest ∧
        t.walk purpose ends dir (xs ++ ys) = .link d target (rest ++ ys)) ∨
      ∃ code, t.walk purpose ends dir (xs ++ ys) = .failed code := by
  induction xs generalizing dir with
  | nil => exact .inl ⟨_, dir, rfl, rfl, rfl⟩
  | cons n rest ih =>
    have hmore : rest ++ ys ≠ [] := by simp [hys]
    rw [List.cons_append]
    simp only [walk]
    split
    · exact ih dir
    split
    · exact ih dir.tail
    simp only [reduceCtorEq, false_and, and_false, if_false, hmore]
    by_cases hlong : nameLimit < n.length
    · exact .inr (.inr ⟨_, if_pos hlong⟩)
    rw [if_neg hlong, if_neg hlong]
    -- with more names to come, only a directory or a link lets the walk go on
    cases t.find (n :: dir) with
    | none => exact .inr (.inr ⟨_, rfl⟩)
    | some e =>
      cases e with
      | directory =>
        by_cases hrest : rest = []
        · subst hrest
          exact .inl ⟨.entry dir n .directory ends', n :: dir, rfl, rfl, rfl⟩
        · simpa [hrest] using ih (n :: dir)
      | file id => exact .inr (.inr ⟨_, rfl⟩)
      | link target =>
        refine .inr (.inl ⟨dir, target, rest, ?_, ?_⟩) <;> simp [Purpose.followsLast]

/-- A path that leads anywhere leads through a directory at each of its names, and from there to
where it leads. -/
theorem follow_append (hys : ys ≠ []) (h : t.follow purpose budget ends dir (xs ++ ys) = .ok f)
    (ends' : Bool) :
    ∃ g l, t.follow .visit budget ends' dir xs = .ok g ∧ g.directory? = some l ∧
      ∃ budget' ends'', t.follow purpose budget' ends'' l ys = .ok f := by
  induction budget generalizing ends ends' dir xs with
  | zero =>
    have hw := walk_of_follow_zero h
    rcases walk_append t purpose dir xs hys ends ends' with
      ⟨g, l, hg, hl, hrest⟩ | ⟨d, target, rest, -, hlink⟩ | ⟨code, hcode⟩
    · exact ⟨g, l, follow_of_walk hg, hl, 0, ends, (follow_congr_of_walk hrest).symm.trans h⟩
    · exact absurd (hw.symm.trans hlink) (by simp)
    · exact absurd (hw.symm.trans hcode) (by simp)
  | succ budget ih =>
    rcases walk_append t purpose dir xs hys ends ends' with
      ⟨g, l, hg, hl, hrest⟩ | ⟨d, target, rest, hx, hlink⟩ | ⟨code, hcode⟩
    · exact ⟨g, l, follow_of_walk hg, hl, _, ends, (follow_congr_of_walk hrest).symm.trans h⟩
    · -- the target of the link takes the place of the names before it, and `ys` still follows
      rw [follow_of_walk_link hx]
      rw [follow_of_walk_link hlink, ← List.append_assoc] at h
      exact ih h _
    · rcases walk_of_follow_succ h with hw | ⟨d, target, rest, hw, -⟩
      · exact absurd (hw.symm.trans hcode) (by simp)
      · exact absurd (hw.symm.trans hcode) (by simp)

/-! ## Opening the directory -/

variable {cwd : Location} {p : Path} {id : FileId}

theorem openExisting_of_directory? {f : Found} {l : Location}
    (h : t.resolve .visit cwd p = .ok f) (hl : f.directory? = some l) :
    t.openExisting cwd p = .ok .directory := by
  unfold openExisting
  rw [h]
  cases f with
  | unnamed l => rfl
  | entry d n e b =>
    cases e with
    | directory => rfl
    | _ => exact absurd hl (by simp [Found.directory?])
  | absent d n b => exact absurd hl (by simp [Found.directory?])

/-- Where a path leads, it leads through its directory, if this is a first part of it. -/
theorem resolve_through_directory {rest : Bytes} {cut : List Name}
    (hbytes : p.bytes = p.directory.bytes ++ rest) (hnames : p.names = p.directory.names ++ cut)
    (hcut : cut ≠ []) (h : t.resolve purpose cwd p = .ok f) :
    ∃ g l, t.resolve .visit cwd p.directory = .ok g ∧ g.directory? = some l ∧
      ∃ budget ends, t.follow purpose budget ends l cut = .ok f := by
  obtain ⟨⟨-, hlength⟩, hfollow⟩ := resolve_eq_ok_iff.mp h
  have hne : p.directory.bytes ≠ [] := fun hnil =>
    p.directory_ne_empty (by rw [Path.empty, ← hnil])
  have hstart : startOf p cwd = startOf p.directory cwd := by
    obtain ⟨b, more, hmore⟩ := List.exists_cons_of_ne_nil hne
    unfold startOf Path.isAbsolute
    rw [hbytes, hmore]
    rfl
  rw [hnames, hstart] at hfollow
  obtain ⟨g, l, hg, hl, hrest⟩ := follow_append hcut hfollow p.directory.endsInSeparator
  refine ⟨g, l, resolve_eq_ok_iff.mpr ⟨⟨hne, ?_⟩, hg⟩, hl, hrest⟩
  rw [hbytes, List.length_append] at hlength
  omega

/-- The directory of a file can be opened. -/
theorem openExisting_directory (h : t.openExisting cwd p = .ok (.file id)) :
    t.openExisting cwd p.directory = .ok .directory := by
  rcases p.directory_cases with hhere | ⟨⟨rest, hbytes⟩, cut, hcut, hnames⟩
  · rw [hhere]
    exact openExisting_of_directory? (f := .unnamed cwd) rfl rfl
  · obtain ⟨d, n, hresolve⟩ := resolve_of_openExisting h
    obtain ⟨g, l, hg, hl, -⟩ := resolve_through_directory hbytes hnames hcut hresolve
    exact openExisting_of_directory? hg hl

theorem openOrMake_here (t : FileTree) (cwd : Location) :
    t.openOrMake cwd Path.here = .error Errno.isDirectory := rfl

/-- A file is not its own directory. -/
theorem directory_ne_of_openOrMake {x : FileId × FileTree} (h : t.openOrMake cwd p = .ok x) :
    p.directory ≠ p := by
  intro heq
  rcases p.directory_cases with hhere | ⟨-, cut, hcut, hnames⟩
  · rw [← heq, hhere, openOrMake_here] at h
    exact absurd h (by simp)
  · rw [heq] at hnames
    exact hcut (List.self_eq_append_right.mp hnames)

end FileTree

/-- The directory of a path without a zero byte has none. -/
theorem Path.hasZeroByte_directory {p : Path} (h : p.hasZeroByte = false) :
    p.directory.hasZeroByte = false := by
  rcases p.directory_cases with hhere | ⟨⟨rest, hbytes⟩, -⟩
  · rw [hhere]
    rfl
  · unfold hasZeroByte at h ⊢
    rw [hbytes] at h
    simp only [List.contains_eq_mem, List.mem_append, decide_eq_false_iff_not, not_or] at h ⊢
    exact h.1

end WriteAhead
