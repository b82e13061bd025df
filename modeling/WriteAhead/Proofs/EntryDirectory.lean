/-
# The directory that holds an entry

A path names an entry: a name in some directory.  `Path.directory` is made from the text of the
path alone, and yet it leads to that directory, through whatever links the path passes on its way
and however it is spelled.

Main statements:

* `resolve_directory` : the directory of a path leads to where the entry is that the path names;
* `directory_holds_entry` : for a path that names a file, this directory can be opened, and the last
  name of the path, looked up in it, leads to the file.
-/
import WriteAhead.Proofs.Trails

namespace WriteAhead

namespace Path

/-! ## Names in a path -/

theorem separator_notMem_of_mem_segments {text : Bytes} {n : Name} (h : n ∈ segments text) :
    separator ∉ n := by
  induction text generalizing n with
  | nil =>
    obtain rfl : n = [] := by simpa using h
    simp
  | cons b rest ih =>
    by_cases hb : b = separator
    · rw [hb, segments_separator_cons] at h
      rcases List.mem_cons.mp h with rfl | h
      · simp
      · exact ih h
    · obtain ⟨s, more, hs⟩ := List.exists_cons_of_ne_nil (segments_ne_nil rest)
      rw [segments_cons hb hs] at h
      rcases List.mem_cons.mp h with rfl | h
      · have hs' : separator ∉ s := ih (hs ▸ List.mem_cons_self)
        simp [Ne.symm hb, hs']
      · exact ih (hs ▸ List.mem_cons_of_mem s h)

/-- A name that a path is walked by is not empty and holds no separator. -/
theorem of_mem_names {p : Path} {n : Name} (h : n ∈ p.names) : n ≠ [] ∧ separator ∉ n := by
  obtain ⟨hmem, hne⟩ := List.mem_filter.mp h
  exact ⟨by simpa using hne, separator_notMem_of_mem_segments hmem⟩

end Path

namespace FileTree

variable {t : FileTree} {purpose : Purpose} {ends b : Bool} {budget : Nat} {dir d cwd : Location}
  {dots dots' names : List Name} {n m : Name} {e : Entry} {f : Found} {p : Path} {id : FileId}

/-! ## Names that are dots -/

theorem walk_dots (hdots : Path.AreDots dots) :
    t.walk purpose ends dir (dots ++ names) = t.walk purpose ends dir names := by
  induction dots with
  | nil => rfl
  | cons x rest ih =>
    have hx : x = [Path.dot] := hdots x List.mem_cons_self
    rw [List.cons_append, walk, if_pos hx]
    exact ih fun y hy => hdots y (List.mem_cons_of_mem x hy)

/-- What is reached by a dot is reached without a name. -/
theorem unnamed_of_follow_dots (hdots : Path.AreDots dots)
    (h : t.follow purpose budget ends dir dots = .ok f) : f = .unnamed dir := by
  have hwalk : t.walk purpose ends dir dots = .found (.unnamed dir) := by
    have hnil : t.walk purpose ends dir (dots ++ []) = .found (.unnamed dir) := walk_dots hdots
    rwa [List.append_nil] at hnil
  exact Except.ok.inj (h.symm.trans (follow_of_walk hwalk))

/-! ## The last name of a path -/

/-- A name that is no dots and not too long is looked up, and the last link is not followed. -/
theorem walk_single (hdot : n ≠ [Path.dot]) (hdots : n ≠ [Path.dot, Path.dot])
    (hlength : n.length ≤ nameLimit) :
    t.walk .remove ends dir [n] = .found (match t.find (n :: dir) with
      | none => .absent dir n ends
      | some e => .entry dir n e ends) := by
  simp only [walk, if_neg hdot, if_neg hdots, if_neg (Nat.not_lt_of_le hlength)]
  cases t.find (n :: dir) with
  | none => rfl
  | some e => cases e <;> rfl

/-- An entry that a single name leads to is the one that the directory has under this name. -/
theorem entry_of_follow_single (h : t.follow .remove budget ends dir [n] = .ok (.entry d m e b)) :
    d = dir ∧ m = n ∧ t.find (n :: dir) = some e ∧
      n ≠ [Path.dot] ∧ n ≠ [Path.dot, Path.dot] ∧ n.length ≤ nameLimit := by
  by_cases hdot : n = [Path.dot]
  · subst hdot
    exact absurd (unnamed_of_follow_dots Path.areDots_dot h) (by simp)
  by_cases hdots : n = [Path.dot, Path.dot]
  · subst hdots
    exact absurd (Except.ok.inj ((follow_of_walk rfl).symm.trans h)) (by simp)
  by_cases hlong : nameLimit < n.length
  · have hwalk : t.walk .remove ends dir [n] = .failed Errno.nameTooLong := by
      simp [walk, hdot, hdots, hlong]
    unfold follow at h
    rw [hwalk] at h
    exact absurd h (by simp)
  have hlength : n.length ≤ nameLimit := Nat.le_of_not_lt hlong
  have hfound := Except.ok.inj ((follow_of_walk (walk_single hdot hdots hlength)).symm.trans h)
  cases hfind : t.find (n :: dir) with
  | none =>
    rw [hfind] at hfound
    exact absurd hfound (by simp)
  | some e' =>
    rw [hfind] at hfound
    obtain ⟨rfl, rfl, rfl, -⟩ := Found.entry.inj hfound
    exact ⟨rfl, rfl, rfl, hdot, hdots, hlength⟩

/-- An entry is reached by the last name of a path, with no dots after it. -/
theorem entry_of_follow (hdots : Path.AreDots dots) (hdots' : Path.AreDots dots')
    (h : t.follow .remove budget ends dir (dots ++ n :: dots') = .ok (.entry d m e b)) :
    dots' = [] ∧ t.follow .remove budget ends dir [n] = .ok (.entry d m e b) := by
  have hnil : dots' = [] := by
    rcases List.eq_nil_or_concat dots' with hnil | ⟨init, x, rfl⟩
    · exact hnil
    · -- a last dot would lead to a place without a name
      rw [List.concat_eq_append, ← List.cons_append, ← List.append_assoc] at h
      obtain ⟨-, l, -, -, budget', ends', hlast⟩ :=
        follow_append (List.cons_ne_nil x []) h false
      have hx : Path.AreDots [x] := fun y hy => hdots' y (by simp_all)
      exact absurd (unnamed_of_follow_dots hx hlast) (by simp)
  subst hnil
  exact ⟨rfl, (follow_congr_of_walk (walk_dots hdots)).symm.trans h⟩

/-- The directory of a path leads to where the entry is that the path names, and the name of the
entry is the last one of the path. -/
theorem resolve_directory (h : t.resolve .remove cwd p = .ok (.entry d n e b)) :
    (∃ g, t.resolve .visit cwd p.directory = .ok g ∧ g.directory? = some d) ∧
      p.names.getLast? = some n ∧ t.find (n :: d) = some e ∧
      n ≠ [Path.dot] ∧ n ≠ [Path.dot, Path.dot] ∧ n.length ≤ nameLimit := by
  rcases p.directory_spells with ⟨-, hdots⟩ | ⟨dots, m, dots', hdots, hdots', hspells⟩
  · exact absurd (unnamed_of_follow_dots hdots (resolve_eq_ok_iff.mp h).2) (by simp)
  obtain ⟨g, l, hg, hl, budget, ends, hfollow, first, hnames⟩ :
      ∃ g l, t.resolve .visit cwd p.directory = .ok g ∧ g.directory? = some l ∧
        ∃ budget ends, t.follow .remove budget ends l (dots ++ m :: dots') = .ok (.entry d n e b) ∧
          ∃ first, p.names = first ++ (dots ++ m :: dots') := by
    rcases hspells with ⟨hhere, hrelative, hnames⟩ | ⟨⟨rest, hbytes⟩, hnames⟩
    · rw [hhere]
      have hfollow := (resolve_eq_ok_iff.mp h).2
      rw [startOf, hrelative, hnames] at hfollow
      exact ⟨.unnamed cwd, cwd, rfl, rfl, _, _, hfollow, [], hnames⟩
    · obtain ⟨g, l, hg, hl, budget, ends, hfollow⟩ :=
        resolve_through_directory hbytes hnames (by simp) h
      exact ⟨g, l, hg, hl, budget, ends, hfollow, _, hnames⟩
  obtain ⟨rfl, hlast⟩ := entry_of_follow hdots hdots' hfollow
  obtain ⟨rfl, rfl, hplain⟩ := entry_of_follow_single hlast
  refine ⟨⟨g, hg, hl⟩, ?_, hplain⟩
  rw [hnames]
  simp

/-! ## The directory of a file -/

/-- A file is opened by its name from the directory that holds it. -/
theorem openExisting_single (hname : n ≠ [] ∧ Path.separator ∉ n) (hdot : n ≠ [Path.dot])
    (hdots : n ≠ [Path.dot, Path.dot]) (hlength : n.length ≤ nameLimit)
    (hfile : t.find (n :: dir) = some (.file id)) :
    t.openExisting dir ⟨n⟩ = .ok (.file id) := by
  obtain ⟨hne, hseparator⟩ := hname
  have hends : Path.endsInSeparator ⟨n⟩ = false := by
    have hlast : n.getLast? ≠ some Path.separator := fun h =>
      hseparator (List.mem_of_getLast? h)
    simpa [Path.endsInSeparator] using hlast
  have hrelative : Path.isAbsolute ⟨n⟩ = false := by
    have hfirst : n.head? ≠ some Path.separator := fun h => hseparator (List.mem_of_head? h)
    simpa [Path.isAbsolute] using hfirst
  have hnames : Path.names ⟨n⟩ = [n] := Path.namesOf_of_not_mem hseparator hne
  have hwalk : t.walk .remove false dir [n] = .found (.entry dir n (.file id) false) := by
    rw [walk_single hdot hdots hlength, hfile]
  have hfollow : t.follow .remove linkLimit (Path.endsInSeparator ⟨n⟩) (startOf ⟨n⟩ dir)
      (Path.names ⟨n⟩) = .ok (.entry dir n (.file id) false) := by
    rw [hends, hnames, startOf, hrelative]
    exact follow_of_walk hwalk
  have hlimit : n.length ≤ pathLimit := Nat.le_trans hlength (by decide)
  exact openExisting_of_resolve_remove (resolve_eq_ok_iff.mpr ⟨⟨hne, hlimit⟩, hfollow⟩)

/-- **The directory of a path holds the entry that the path names.**  For every path it is a path
that has some text.  Where a path leads to a file, and its last name is not that of a link, the path
names an entry of this file in some directory, and the directory of the path can be opened from the
same place and leads to exactly this directory; the name of the entry is the last name of the path,
and looked up in this directory it leads to the same file. -/
theorem directory_holds_entry (t : FileTree) (cwd : Location) (p : Path) :
    p.directory ≠ Path.empty ∧
    ∀ id, t.openExisting cwd p = .ok (.file id) → ¬ t.NamesLink cwd p →
      ∃ d n,
        (t.resolve .remove cwd p = .ok (.entry d n (.file id) false) ∧
          t.find (n :: d) = some (.file id)) ∧
        (t.openExisting cwd p.directory = .ok .directory ∧
          ∃ g, t.resolve .visit cwd p.directory = .ok g ∧ g.directory? = some d) ∧
        p.names.getLast? = some n ∧
        t.openExisting d ⟨n⟩ = .ok (.file id) := by
  refine ⟨p.directory_ne_empty, fun id hopen hlink => ?_⟩
  obtain ⟨d, n, hvisit⟩ := resolve_of_openExisting hopen
  have hresolve : t.resolve .remove cwd p = .ok (.entry d n (.file id) false) := by
    rcases resolve_remove_of_visit hvisit with hremove | hnamed
    · exact hremove
    · exact absurd hnamed hlink
  obtain ⟨⟨g, hg, hd⟩, hlast, hfind, hdot, hdots, hlength⟩ := resolve_directory hresolve
  have hname := Path.of_mem_names (List.mem_of_getLast? hlast)
  exact ⟨d, n, ⟨hresolve, hfind⟩, ⟨openExisting_of_directory? hg hd, g, hg, hd⟩, hlast,
    openExisting_single hname hdot hdots hlength hfind⟩

/-- A file `x` in a directory `d` is named by `l/..//l/./x`, where `l` is a link to `d`. -/
theorem directory_holds_entry_through_links :
    let t : FileTree := ⟨[([[100]], .directory), ([[108]], .link ⟨[100]⟩),
      ([[120], [100]], .file 7)], fun _ => Content.empty, 8⟩
    let p : Path := ⟨[108, 47, 46, 46, 47, 47, 108, 47, 46, 47, 120]⟩
    t.openExisting [] p = .ok (.file 7) ∧ ¬ t.NamesLink [] p ∧
      p.directory = ⟨[108, 47, 46, 46, 47, 47, 108]⟩ ∧
      (∃ g, t.resolve .visit [] p.directory = .ok g ∧ g.directory? = some [[100]]) ∧
      t.openExisting [[100]] ⟨[120]⟩ = .ok (.file 7) := by
  intro t p
  have hopen : t.openExisting [] p = .ok (.file 7) := by rfl
  have hresolve : t.resolve .remove [] p = .ok (.entry [[100]] [120] (.file 7) false) := by rfl
  have hlink : ¬ t.NamesLink [] p := by
    rintro ⟨d, n, target, b, hnamed⟩
    exact absurd (hresolve.symm.trans hnamed) (by simp)
  obtain ⟨-, hholds⟩ := directory_holds_entry t [] p
  obtain ⟨d, n, ⟨hentry, -⟩, ⟨-, hdirectory⟩, -, hfile⟩ := hholds 7 hopen hlink
  obtain ⟨rfl, rfl, -⟩ := Found.entry.inj (Except.ok.inj (hresolve.symm.trans hentry))
  exact ⟨hopen, hlink, rfl, hdirectory, hfile⟩

end FileTree

end WriteAhead
