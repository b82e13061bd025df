/-
# What a journal sees, and what it changes

An open journal sees a part of the machine only: its own descriptor, the file behind it, and what is
looked up along its path.  What is done with it amounts to changes of a few kinds.  A change outside
of the view of a journal makes no difference to the view, and changes by two journals that are apart
can be made in either order.

Main statements:

* `view_after_of_unseen` : changes that a journal does not see leave its view as it was;
* `Machine.apart_of_files` : journals that have different files open are apart, if their paths name
  files at different locations;
* `View.Apart.unseenBy` : a journal does not see what a journal apart from it changes;
* `View.Apart.after_comm` : the changes of two journals that are apart can be made in either order.
-/
import WriteAhead.Journal.Handle
import WriteAhead.Proofs.Calls
import WriteAhead.Proofs.Trails

namespace WriteAhead

/-! ## Changes -/

/-- What can be done to a machine by using and releasing a journal. -/
inductive Change where
  /-- A file gets another content. -/
  | content (id : FileId) (c : Content)
  /-- An entry is removed. -/
  | removed (l : Location)
  /-- A descriptor is closed. -/
  | closed (number : Nat)
  /-- A number was handed out, to something that is closed again. -/
  | handedOut

namespace Machine

/-- The machine after a change. -/
def apply (m : Machine) : Change → Machine
  | .content id c => m.setContent id c
  | .removed l => { m with tree := m.tree.erase l }
  | .closed number => m.forget number
  | .handedOut => { m with nextNumber := m.nextNumber + 1 }

/-- The machine after some changes, one after the other. -/
def after (m : Machine) (ys : List Change) : Machine := ys.foldl apply m

@[simp] theorem after_nil (m : Machine) : m.after [] = m := rfl

@[simp] theorem after_cons (m : Machine) (y : Change) (ys : List Change) :
    m.after (y :: ys) = (m.apply y).after ys := rfl

theorem after_append (m : Machine) (xs ys : List Change) :
    m.after (xs ++ ys) = (m.after xs).after ys := List.foldl_append

/-- Nothing is open under a number that was not handed out yet. -/
def Orderly (m : Machine) : Prop := ∀ k, m.nextNumber ≤ k → m.opened k = none

theorem orderly_ofTree (t : FileTree) (cwd : Location) : (ofTree t cwd).Orderly := fun _ _ => rfl

theorem Orderly.openTarget {m : Machine} (h : m.Orderly) (p : Path) (f : OpenFile) :
    (m.openTarget p f).2.Orderly := by
  intro k hk
  have hlt : m.nextNumber < k := hk
  show (if k = m.nextNumber then some f else m.opened k) = none
  rw [if_neg (Nat.ne_of_gt hlt)]
  exact h k (Nat.le_of_lt hlt)

theorem Orderly.apply {m : Machine} (h : m.Orderly) (y : Change) : (m.apply y).Orderly := by
  intro k hk
  cases y with
  | content id c => exact h k hk
  | removed l => exact h k hk
  | closed number =>
    show (if k = number then none else m.opened k) = none
    split
    · rfl
    · exact h k hk
  | handedOut => exact h k (Nat.le_of_succ_le hk)

theorem Orderly.after {m : Machine} (h : m.Orderly) (ys : List Change) : (m.after ys).Orderly := by
  induction ys generalizing m with
  | nil => exact h
  | cons y ys ih => exact ih (h.apply y)

end Machine

/-! ## The order of changes -/

theorem FileTree.eraseIn_comm (k l : Location) (es : List (Location × Entry)) :
    eraseIn k (eraseIn l es) = eraseIn l (eraseIn k es) := by
  induction es with
  | nil => rfl
  | cons x rest ih =>
    obtain ⟨n, e⟩ := x
    by_cases hk : n = k
    · by_cases hl : n = l
      · simp only [eraseIn, if_pos hk, if_pos hl, ih]
      · simp only [eraseIn, if_pos hk, if_neg hl, ih]
    · by_cases hl : n = l
      · simp only [eraseIn, if_neg hk, if_pos hl, ih]
      · simp only [eraseIn, if_neg hk, if_neg hl, ih]

namespace Machine

/-- Two changes can be made in either order, unless they are to the content of one file. -/
theorem apply_comm (m : Machine) {x y : Change}
    (h : ∀ id c c', x = .content id c → y ≠ .content id c') :
    (m.apply x).apply y = (m.apply y).apply x := by
  cases x with
  | content id c =>
    cases y with
    | content id' c' =>
      have hne : id ≠ id' := by
        rintro rfl
        exact h id c c' rfl rfl
      have hcontent : ((m.tree.setContent id c).setContent id' c').content =
          ((m.tree.setContent id' c').setContent id c).content := by
        funext k
        simp only [FileTree.content_setContent]
        by_cases hk : k = id
        · rw [if_neg (hk ▸ hne), if_pos hk, if_pos hk]
        · rw [if_neg hk, if_neg hk]
      exact congrArg (fun new => ({ m with tree := { m.tree with content := new } } : Machine))
        hcontent
    | removed l => rfl
    | closed number => rfl
    | handedOut => rfl
  | removed l =>
    cases y with
    | removed k =>
      exact congrArg (fun new => ({ m with tree := { m.tree with entries := new } } : Machine))
        (FileTree.eraseIn_comm k l m.tree.entries)
    | content id c => rfl
    | closed number => rfl
    | handedOut => rfl
  | closed number =>
    cases y with
    | closed number' =>
      have hopened : ((m.forget number).forget number').opened =
          ((m.forget number').forget number).opened := by
        funext k
        simp only [forget]
        by_cases hk : k = number
        · simp only [hk, if_true, ite_self]
        · simp only [if_neg hk]
      exact congrArg (fun new => ({ m with opened := new } : Machine)) hopened
    | content id c => rfl
    | removed l => rfl
    | handedOut => rfl
  | handedOut => cases y <;> rfl

end Machine

/-! ## The view of a journal -/

/-- What is seen of a machine along the path of a journal. -/
structure PathView where
  /-- The locations that are looked up along the path, and along that of its directory. -/
  trail : List Location
  /-- What the path leads to, when the entry itself is to be removed. -/
  entry : Except Int FileTree.Found
  /-- What the directory of the path is opened as. -/
  directory : Except Int FileTree.Target

/-- The location of the entry that is removed when the path is unlinked. -/
def PathView.location? (p : PathView) : Option Location :=
  match p.entry with
  | .ok (.entry dir n _ _) => some (n :: dir)
  | _ => none

/-- What a journal sees of a machine. -/
structure View where
  /-- The number of its descriptor. -/
  number : Option Nat
  /-- What is open under this number. -/
  file : Option OpenFile
  /-- The content of the file that is open. -/
  content : Option Content
  /-- What it sees along its path, if it has one. -/
  path : Option PathView
  /-- Its path is unlinked when it is released. -/
  ephemeral : Bool

namespace View

/-- The locations that are looked up by what is done with the journal. -/
def trail (v : View) : List Location :=
  match v.path with
  | none => []
  | some p => p.trail

/-- The location of the entry that is removed when the journal is released. -/
def unlinks (v : View) : Option Location :=
  if v.ephemeral then v.path.bind PathView.location? else none

end View

namespace Machine

/-- The content of an open file; a directory has none. -/
def contentOf (m : Machine) (f : OpenFile) : Option Content :=
  match f.target with
  | .directory => none
  | .file id => some (m.tree.content id)

/-- What is seen of a machine along the path of a journal. -/
def pathView (m : Machine) (p : Path) : PathView where
  trail := m.tree.trail .remove m.workingDirectory p ++
    m.tree.trail .visit m.workingDirectory p.directory
  entry := m.tree.resolve .remove m.workingDirectory p
  directory := m.tree.openExisting m.workingDirectory p.directory

/-- What a journal sees of a machine. -/
def view (m : Machine) (h : Handle) : View where
  number := h.descriptor.map (·.number)
  file := h.descriptor.bind fun d => m.opened d.number
  content := (h.descriptor.bind fun d => m.opened d.number).bind m.contentOf
  path := h.path.map m.pathView
  ephemeral := h.deleteOnClose

end Machine

/-! ## Changes that a journal sees -/

namespace Change

/-- The change is one that a journal with this view can make. -/
def MadeBy (v : View) : Change → Prop
  | content id _ => v.file = some ⟨true, .file id⟩
  | removed l => v.unlinks = some l
  | closed number => v.number = some number
  | handedOut => True

/-- The change is one that a journal with this view can make while it stays open. -/
def Uses (v : View) : Change → Prop
  | content id _ => v.file = some ⟨true, .file id⟩
  | handedOut => True
  | removed _ | closed _ => False

/-- A journal with this view does not see the change. -/
def UnseenBy (v : View) : Change → Prop
  | content id _ => ∀ w, v.file ≠ some ⟨w, .file id⟩
  | removed l => l ∉ v.trail
  | closed number => v.number ≠ some number
  | handedOut => True

theorem Uses.madeBy {v : View} {y : Change} (h : y.Uses v) : y.MadeBy v := by
  cases y with
  | content id c => exact h
  | handedOut => trivial
  | removed l => exact absurd h id
  | closed number => exact absurd h id

end Change

namespace View

/-- What a journal sees after a change that it makes while it stays open. -/
def next (v : View) : Change → View
  | .content _ c => { v with content := some c }
  | _ => v

/-- What a journal sees after some changes that it makes while it stays open. -/
def after (v : View) (ys : List Change) : View := ys.foldl next v

theorem uses_next {v : View} {x y : Change} : x.Uses (v.next y) ↔ x.Uses v := by
  cases x <;> cases y <;> exact Iff.rfl

theorem uses_after {v : View} {x : Change} (ys : List Change) :
    x.Uses (v.after ys) ↔ x.Uses v := by
  induction ys generalizing v with
  | nil => exact Iff.rfl
  | cons y ys ih => exact ih.trans uses_next

end View

namespace Machine

variable {m : Machine} {h : Handle} {y : Change} {p : Path}

theorem number_view {d : Descriptor} (hd : h.descriptor = some d) :
    (m.view h).number = some d.number := by
  unfold view
  rw [hd]
  rfl

theorem file_view {d : Descriptor} (hd : h.descriptor = some d) :
    (m.view h).file = m.opened d.number := by
  unfold view
  rw [hd]
  rfl

theorem path_view (hp : h.path = some p) : (m.view h).path = some (m.pathView p) := by
  unfold view
  rw [hp]
  rfl

theorem trail_view (hp : h.path = some p) : (m.view h).trail = (m.pathView p).trail := by
  unfold View.trail
  rw [path_view hp]

/-- What is unlinked when the journal is released is what its path leads to. -/
theorem unlinks_view_eq_some_iff {l : Location} : (m.view h).unlinks = some l ↔
    h.deleteOnClose = true ∧ ∃ p, h.path = some p ∧ (m.pathView p).location? = some l := by
  show (if h.deleteOnClose then (h.path.map m.pathView).bind PathView.location? else none) = _ ↔ _
  cases h.path <;> simp

theorem contentOf_setContent {id : FileId} {f : OpenFile} (hf : f.target ≠ .file id) (c : Content) :
    (m.setContent id c).contentOf f = m.contentOf f := by
  unfold contentOf
  cases htarget : f.target with
  | directory => rfl
  | file k =>
    have hne : k ≠ id := by
      rintro rfl
      exact hf htarget
    show some (if k = id then c else m.tree.content k) = some (m.tree.content k)
    rw [if_neg hne]

theorem pathView_setContent (m : Machine) (id : FileId) (c : Content) :
    (m.setContent id c).pathView = m.pathView := by
  funext p
  unfold pathView
  simp only [tree_setContent, FileTree.trail_setContent, FileTree.resolve_setContent,
    FileTree.openExisting_setContent]
  rfl

/-- A path and its directory are found as before when an entry is removed that is not on their
trails. -/
theorem pathView_removed {l : Location} (hl : l ∉ (m.pathView p).trail) :
    (m.apply (.removed l)).pathView p = m.pathView p := by
  obtain ⟨hentry, htrail⟩ := FileTree.resolve_erase_of_notMem fun hmem =>
    hl (List.mem_append_left _ hmem)
  obtain ⟨hfound, htrail'⟩ := FileTree.resolve_erase_of_notMem fun hmem =>
    hl (List.mem_append_right _ hmem)
  have hdirectory : (m.tree.erase l).openExisting m.workingDirectory p.directory =
      m.tree.openExisting m.workingDirectory p.directory := by
    unfold FileTree.openExisting
    rw [hfound]
  show PathView.mk ((m.tree.erase l).trail .remove m.workingDirectory p ++
    (m.tree.erase l).trail .visit m.workingDirectory p.directory) _ _ = _
  rw [htrail, htrail']
  show PathView.mk _ ((m.tree.erase l).resolve .remove m.workingDirectory p)
    ((m.tree.erase l).openExisting m.workingDirectory p.directory) = _
  rw [hentry, hdirectory]
  rfl

/-- What a journal sees after a change that it does not see is what it saw before. -/
theorem view_apply_of_unseen (hy : y.UnseenBy (m.view h)) : (m.apply y).view h = m.view h := by
  cases y with
  | content id c =>
    have hcontent : (m.view h).file.bind (m.setContent id c).contentOf =
        (m.view h).file.bind m.contentOf := by
      cases hfile : (m.view h).file with
      | none => rfl
      | some f =>
        refine contentOf_setContent ?_ c
        intro htarget
        exact hy f.writable (by rw [hfile, ← htarget])
    show View.mk _ _ ((m.view h).file.bind (m.setContent id c).contentOf)
      (h.path.map (m.setContent id c).pathView) _ = _
    rw [hcontent, pathView_setContent]
    rfl
  | removed l =>
    have hpath : h.path.map (m.apply (.removed l)).pathView = h.path.map m.pathView := by
      cases hp : h.path with
      | none => rfl
      | some p =>
        have hl : l ∉ (m.view h).trail := hy
        rw [trail_view hp] at hl
        exact congrArg some (pathView_removed hl)
    show View.mk _ _ _ (h.path.map (m.apply (.removed l)).pathView) _ = _
    rw [hpath]
    rfl
  | closed number =>
    have hfile : (h.descriptor.bind fun d => (m.forget number).opened d.number) =
        h.descriptor.bind fun d => m.opened d.number := by
      cases hd : h.descriptor with
      | none => rfl
      | some d =>
        have hne : d.number ≠ number := by
          intro heq
          exact hy (by rw [number_view hd, heq])
        exact if_neg hne
    show View.mk _ (h.descriptor.bind fun d => (m.forget number).opened d.number)
      ((h.descriptor.bind fun d => (m.forget number).opened d.number).bind m.contentOf) _ _ = _
    rw [hfile]
    rfl
  | handedOut => rfl

/-- Changes that a journal does not see leave its view as it was. -/
theorem view_after_of_unseen {ys : List Change} (hys : ∀ y ∈ ys, y.UnseenBy (m.view h)) :
    (m.after ys).view h = m.view h := by
  induction ys generalizing m with
  | nil => rfl
  | cons y ys ih =>
    have hview : (m.apply y).view h = m.view h := view_apply_of_unseen (hys y List.mem_cons_self)
    rw [after_cons, ih, hview]
    rw [hview]
    exact fun x hx => hys x (List.mem_cons_of_mem _ hx)

/-- What a journal sees after a change that it has made itself, and stays open. -/
theorem view_apply_of_uses (hy : y.Uses (m.view h)) : (m.apply y).view h = (m.view h).next y := by
  cases y with
  | content id c =>
    have hcontent : (m.view h).file.bind (m.setContent id c).contentOf = some c := by
      rw [show (m.view h).file = some ⟨true, .file id⟩ from hy]
      exact congrArg some (content_setContent_self m.tree id c)
    show View.mk _ _ ((m.view h).file.bind (m.setContent id c).contentOf)
      (h.path.map (m.setContent id c).pathView) _ = _
    rw [hcontent, pathView_setContent]
    rfl
  | handedOut => rfl
  | removed l => exact absurd hy id
  | closed number => exact absurd hy id

theorem view_after_of_uses {ys : List Change} (hys : ∀ y ∈ ys, y.Uses (m.view h)) :
    (m.after ys).view h = (m.view h).after ys := by
  induction ys generalizing m with
  | nil => rfl
  | cons y ys ih =>
    have hview : (m.apply y).view h = (m.view h).next y :=
      view_apply_of_uses (hys y List.mem_cons_self)
    rw [after_cons, ih, hview]
    · rfl
    · intro x hx
      rw [hview]
      exact View.uses_next.mpr (hys x (List.mem_cons_of_mem _ hx))

end Machine

/-! ## Journals that are apart -/

/-- A journal with the view `v` does not depend on what a journal with the view `v'` is used for:
the two have other descriptors and other files, and the entry that is removed when the second one
is released is not looked up for the first one. -/
structure View.Apart (v v' : View) : Prop where
  number : ∀ k, v.number = some k → v'.number ≠ some k
  file : ∀ id w w', v.file = some ⟨w, .file id⟩ → v'.file ≠ some ⟨w', .file id⟩
  entry : ∀ l, v'.unlinks = some l → l ∉ v.trail

namespace View.Apart

variable {v v' : View} {x y : Change}

/-- A journal does not see what a journal apart from it changes. -/
theorem unseenBy (h : v.Apart v') (hy : y.MadeBy v') : y.UnseenBy v := by
  cases y with
  | content id c => exact fun w hfile => h.file id w true hfile hy
  | removed l => exact h.entry l hy
  | closed number => exact fun hnumber => h.number number hnumber hy
  | handedOut => trivial

/-- Journals stay apart while one of them is used. -/
theorem after_left (h : v.Apart v') (ys : List Change) : (v.after ys).Apart v' := by
  induction ys generalizing v with
  | nil => exact h
  | cons y ys ih =>
    have hnext : (v.next y).Apart v' := by
      cases y <;> exact ⟨h.number, h.file, h.entry⟩
    exact ih hnext

theorem after_right (h : v.Apart v') (ys : List Change) : v.Apart (v'.after ys) := by
  induction ys generalizing v' with
  | nil => exact h
  | cons y ys ih =>
    have hnext : v.Apart (v'.next y) := by
      cases y <;> exact ⟨h.number, h.file, h.entry⟩
    exact ih hnext

theorem apply_comm (h : v.Apart v') (hx : x.MadeBy v) (hy : y.MadeBy v') (m : Machine) :
    (m.apply x).apply y = (m.apply y).apply x := by
  refine m.apply_comm ?_
  rintro id c c' rfl rfl
  exact h.file id true true hx hy

/-- The changes of two journals that are apart can be made in either order. -/
theorem after_comm (h : v.Apart v') {xs ys : List Change} (hxs : ∀ x ∈ xs, x.MadeBy v)
    (hys : ∀ y ∈ ys, y.MadeBy v') (m : Machine) :
    (m.after xs).after ys = (m.after ys).after xs := by
  have hone : ∀ x ∈ xs, ∀ m : Machine, (m.apply x).after ys = (m.after ys).apply x := by
    intro x hx
    induction ys with
    | nil => exact fun _ => rfl
    | cons y ys ih =>
      intro m
      rw [Machine.after_cons, Machine.after_cons,
        h.apply_comm (hxs x hx) (hys y List.mem_cons_self),
        ih fun y hy => hys y (List.mem_cons_of_mem _ hy)]
  induction xs generalizing m with
  | nil => rfl
  | cons x xs ih =>
    rw [Machine.after_cons, Machine.after_cons, ih fun x hx => hxs x (List.mem_cons_of_mem _ hx),
      hone x List.mem_cons_self]
    exact fun x hx => hone x (List.mem_cons_of_mem _ hx)

end View.Apart

/-- Journals that have different files open, and whose paths name files at different locations, are
apart. -/
theorem Machine.apart_of_files {m : Machine} {h h' : Handle} {d d' : Descriptor} {f f' : OpenFile}
    (hd : h.descriptor = some d) (hd' : h'.descriptor = some d') (hnumber : d.number ≠ d'.number)
    (hf : m.opened d.number = some f) (hf' : m.opened d'.number = some f')
    (hfile : ∀ id, f.target = .file id → f'.target ≠ .file id)
    (hpath : ∀ p q, h.path = some p → h'.path = some q → ∃ k l,
      m.tree.NamesFile m.workingDirectory p k ∧ m.tree.NamesFile m.workingDirectory q l ∧ l ≠ k) :
    (m.view h).Apart (m.view h') where
  number := by
    rw [number_view hd, number_view hd']
    intro k hk hk'
    exact hnumber ((Option.some.inj hk).trans (Option.some.inj hk').symm)
  file := by
    rw [file_view hd, file_view hd', hf, hf']
    intro id w w' hw hw'
    exact hfile id (congrArg OpenFile.target (Option.some.inj hw))
      (congrArg OpenFile.target (Option.some.inj hw'))
  entry := by
    intro l hl
    obtain ⟨-, q, hq, hlocation⟩ := unlinks_view_eq_some_iff.mp hl
    cases hp : h.path with
    | none =>
      have hnone : (m.view h).path = none := by
        unfold view
        rw [hp]
        rfl
      unfold View.trail
      rw [hnone]
      exact List.not_mem_nil
    | some p =>
      rw [trail_view hp]
      obtain ⟨k, k', hnames, hnames', hne⟩ := hpath p q hp hq
      obtain ⟨hentry, hdirectory⟩ := FileTree.notMem_trail_of_namesFile hnames hnames' hne
      obtain ⟨dir, n, id, hresolve, rfl⟩ := hnames'
      obtain rfl : n :: dir = l := by
        unfold PathView.location? pathView at hlocation
        rw [hresolve] at hlocation
        exact Option.some.inj hlocation
      exact fun hmem => (List.mem_append.mp hmem).elim hentry hdirectory

end WriteAhead
