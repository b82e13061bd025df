/-
# The order in a document

The entries of a table stand in the order of their names, each name once.  This is so for every
table of a document, however it was made and however deep it lies: a statement puts a value under a
name at its place, or changes the value under a name.

* `Entries.Ordered.put`, `ordered_alterAt` : what changes a table keeps it in order;
* `ordered_of_readDocument` : every document is in order.
-/
import WriteAhead.Toml.Document
import Mathlib.Data.String.Basic

namespace WriteAhead

/-! ## What readers yield -/

namespace Text.Reader

variable {α β : Type} {r s : Reader α} {f : α → Reader β} {P : α → Prop} {Q : β → Prop}

/-- Whatever text the reader takes something off, it yields one of `P`. -/
def Yields (r : Reader α) (P : α → Prop) : Prop :=
  ∀ cs a rest, r cs = some (a, rest) → P a

theorem Yields.any (r : Reader α) : r.Yields fun _ => True := fun _ _ _ _ => trivial

theorem yields_pure {a : α} (h : P a) : (pure a : Reader α).Yields P := by
  rintro cs b rest hb
  obtain rfl : a = b := congrArg Prod.fst (Option.some.inj hb)
  exact h

theorem Yields.bind (hr : r.Yields P) (hf : ∀ a, P a → (f a).Yields Q) : (r >>= f).Yields Q := by
  intro cs b rest hb
  rw [bind_apply] at hb
  obtain ⟨⟨a, mid⟩, ha, hb⟩ := Option.bind_eq_some_iff.mp hb
  exact hf a (hr cs a mid ha) mid b rest hb

theorem Yields.map {g : α → β} (hr : r.Yields P) (hg : ∀ a, P a → Q (g a)) :
    (g <$> r).Yields Q := by
  intro cs b rest hb
  rw [map_apply] at hb
  obtain ⟨⟨a, mid⟩, ha, heq⟩ := Option.map_eq_some_iff.mp hb
  obtain rfl : g a = b := congrArg Prod.fst heq
  exact hg a (hr cs a mid ha)

theorem Yields.orElse (hr : r.Yields P) (hs : s.Yields P) : (r <|> s).Yields P := by
  intro cs a rest h
  have h' : ((r cs).orElse fun _ => s cs) = some (a, rest) := h
  cases hfirst : r cs with
  | none =>
    rw [hfirst] at h'
    exact hs cs a rest h'
  | some x =>
    rw [hfirst] at h'
    exact hr cs a rest (hfirst.trans h')

theorem Yields.optional (hr : r.Yields P) : (optional r).Yields fun o => ∀ a ∈ o, P a :=
  (hr.map fun a ha b hb => by
    obtain rfl := Option.some.inj hb
    exact ha).orElse (yields_pure (by simp))

theorem Yields.many (hr : r.Yields P) : (many r).Yields fun as => ∀ a ∈ as, P a := by
  intro cs as rest h
  unfold Reader.many at h
  generalize cs.length = bound at h
  induction bound generalizing cs as rest with
  | zero =>
    obtain rfl : [] = as := congrArg Prod.fst (Option.some.inj h)
    simp
  | succ bound ih =>
    unfold manyUpTo at h
    split at h
    · obtain rfl : [] = as := congrArg Prod.fst (Option.some.inj h)
      simp
    · next a mid ha =>
      obtain ⟨⟨more, end_⟩, hmore, heq⟩ := Option.map_eq_some_iff.mp h
      obtain rfl : a :: more = as := congrArg Prod.fst heq
      exact List.forall_mem_cons.mpr ⟨hr cs a mid ha, ih _ _ _ hmore⟩

theorem yields_lift {o : Option α} (h : ∀ a ∈ o, P a) : (liftM o : Reader α).Yields P := by
  intro cs a rest ha
  have ha' : (o.bind fun a => some (a, cs)) = some (a, rest) := ha
  obtain ⟨b, hb, heq⟩ := Option.bind_eq_some_iff.mp ha'
  obtain rfl : b = a := congrArg Prod.fst (Option.some.inj heq)
  exact h b hb

theorem Yields.whole (hr : r.Yields P) {cs : List Char} {a : α} (h : whole r cs = some a) :
    P a := by
  unfold Reader.whole at h
  split at h
  · next b hb =>
    obtain rfl := Option.some.inj h
    exact hr cs b [] hb
  · exact absurd h (by simp)

end Text.Reader

/-- What each step of a fold that may fail preserves. -/
theorem invariant_foldlM {α σ : Type} {f : σ → α → Option σ} {P : σ → Prop} {as : List α}
    (hstep : ∀ s a s', a ∈ as → P s → f s a = some s' → P s') {s s' : σ}
    (h : as.foldlM f s = some s') (hs : P s) : P s' := by
  induction as generalizing s with
  | nil =>
    obtain rfl := Option.some.inj h
    exact hs
  | cons a rest ih =>
    rw [List.foldlM_cons] at h
    obtain ⟨mid, hmid, h⟩ := Option.bind_eq_some_iff.mp h
    exact ih (fun s b s' hb => hstep s b s' (List.mem_cons_of_mem _ hb)) h
      (hstep s a mid List.mem_cons_self hs hmid)

namespace Toml

open Text

/-! ## Tables in order -/

/-- Every table in the value has its entries in the order of their names, each name once. -/
inductive Node.Ordered : Node → Prop where
  | scalar (s : Scalar) : Ordered (.scalar s)
  | list {items : List Node} (h : ∀ n ∈ items, Ordered n) : Ordered (.list items)
  | table (kind : TableKind) {es : Entries} (hnames : es.Pairwise (·.1 < ·.1))
      (h : ∀ e ∈ es, Ordered e.2) : Ordered (.table kind es)
  | series {earlier : List Node} {latest : Entries} (hearlier : ∀ n ∈ earlier, Ordered n)
      (hnames : latest.Pairwise (·.1 < ·.1)) (h : ∀ e ∈ latest, Ordered e.2) :
      Ordered (.series earlier latest)

namespace Entries

variable {es : Entries} {k : String} {v : Node}

/-- The entries stand in the order of their names, each name once, and so in every table in them. -/
structure Ordered (es : Entries) : Prop where
  names : es.Pairwise (·.1 < ·.1)
  nodes : ∀ e ∈ es, e.2.Ordered

theorem ordered_nil : Ordered [] := ⟨.nil, by simp⟩

theorem mem_of_find? (h : es.find? k = some v) : (k, v) ∈ es := by
  induction es with
  | nil => exact absurd h (by simp [find?])
  | cons e rest ih =>
    obtain ⟨k', v'⟩ := e
    unfold find? at h
    split at h
    · next hk =>
      obtain rfl := Option.some.inj h
      exact hk ▸ List.mem_cons_self
    · exact List.mem_cons_of_mem _ (ih h)

theorem mem_put {e : String × Node} (h : e ∈ es.put k v) : e = (k, v) ∨ e ∈ es := by
  induction es with
  | nil => exact .inl (List.mem_singleton.mp h)
  | cons e' rest ih =>
    obtain ⟨k', v'⟩ := e'
    unfold put at h
    split at h
    · exact (List.mem_cons.mp h).imp_right (List.mem_cons_of_mem _)
    · split at h
      · exact List.mem_cons.mp h
      · rcases List.mem_cons.mp h with rfl | h
        · exact .inr List.mem_cons_self
        · exact (ih h).imp_right (List.mem_cons_of_mem _)

theorem pairwise_put (h : es.Pairwise (·.1 < ·.1)) : (es.put k v).Pairwise (·.1 < ·.1) := by
  induction es with
  | nil => exact List.pairwise_singleton _ _
  | cons e rest ih =>
    obtain ⟨k', v'⟩ := e
    obtain ⟨hfirst, hrest⟩ := List.pairwise_cons.mp h
    unfold put
    split
    · next hk =>
      subst hk
      exact List.pairwise_cons.mpr ⟨hfirst, hrest⟩
    · next hne =>
      split
      · next hlt =>
        refine List.pairwise_cons.mpr ⟨fun e he => ?_, h⟩
        rcases List.mem_cons.mp he with rfl | he
        · exact hlt
        · exact lt_trans hlt (hfirst e he)
      · next hnot =>
        have hlt : k' < k := lt_of_le_of_ne (not_lt.mp hnot) hne
        refine List.pairwise_cons.mpr ⟨fun e he => ?_, ih hrest⟩
        rcases mem_put he with rfl | he
        · exact hlt
        · exact hfirst e he

theorem Ordered.put (h : es.Ordered) (hv : v.Ordered) : (es.put k v).Ordered where
  names := pairwise_put h.names
  nodes := by
    intro e he
    rcases mem_put he with rfl | he
    · exact hv
    · exact h.nodes e he

theorem Ordered.find? (h : es.Ordered) (hv : es.find? k = some v) : v.Ordered :=
  h.nodes _ (mem_of_find? hv)

end Entries

theorem Entries.Ordered.table {es : Entries} (h : es.Ordered) (kind : TableKind) :
    (Node.table kind es).Ordered := .table kind h.names h.nodes

theorem Node.Ordered.entries {kind : TableKind} {es : Entries} (h : (Node.table kind es).Ordered) :
    es.Ordered := by
  cases h with
  | table _ hnames h => exact ⟨hnames, h⟩

theorem Node.Ordered.latest {earlier : List Node} {es : Entries}
    (h : (Node.series earlier es).Ordered) : es.Ordered := by
  cases h with
  | series _ hnames h => exact ⟨hnames, h⟩

theorem Node.Ordered.earlier {earlier : List Node} {es : Entries}
    (h : (Node.series earlier es).Ordered) : ∀ n ∈ earlier, n.Ordered := by
  cases h with
  | series h _ _ => exact h

/-! ## Changes -/

/-- The change of a table keeps it in order. -/
def KeepsOrder (change : TableKind → Entries → Option Entries) : Prop :=
  ∀ kind es es', es.Ordered → change kind es = some es' → es'.Ordered

/-- What keeps the table at the end of a path in order keeps all tables on the path in order. -/
theorem ordered_alterAt {isDotted : Bool} {change : TableKind → Entries → Option Entries}
    (hchange : KeepsOrder change) (path : List String) :
    KeepsOrder (alterAt isDotted change path) := by
  induction path with
  | nil => exact hchange
  | cons k path ih =>
    intro kind es es' hes h
    unfold alterAt at h
    split at h
    · obtain ⟨inner, hinner, heq⟩ := Option.bind_eq_some_iff.mp h
      obtain rfl := Option.some.inj heq
      exact hes.put ((ih _ _ _ Entries.ordered_nil hinner).table _)
    · next kind' inner hfound =>
      split at h
      · exact absurd h (by simp)
      · obtain ⟨inner', hinner, heq⟩ := Option.bind_eq_some_iff.mp h
        obtain rfl := Option.some.inj heq
        exact hes.put ((ih _ _ _ (hes.find? hfound).entries hinner).table _)
    · next earlier latest hfound =>
      obtain ⟨latest', hlatest, heq⟩ := Option.bind_eq_some_iff.mp h
      obtain rfl := Option.some.inj heq
      have hlatest' := ih _ _ _ (hes.find? hfound).latest hlatest
      exact hes.put (.series (hes.find? hfound).earlier hlatest'.names hlatest'.nodes)
    · exact absurd h (by simp)
    · exact absurd h (by simp)

theorem ordered_assign {v : Node} (hv : v.Ordered) (path : List String) (key : String) :
    KeepsOrder (assign path key v) := by
  refine ordered_alterAt (fun kind es es' hes h => ?_) path
  unfold assignIn at h
  split at h
  · exact absurd h (by simp)
  · obtain rfl := Option.some.inj h
    exact hes.put hv

theorem ordered_openIn (key : String) : KeepsOrder (openIn key) := by
  intro kind es es' hes h
  unfold openIn at h
  split at h
  · obtain rfl := Option.some.inj h
    exact hes.put (Entries.ordered_nil.table _)
  · next inner hfound =>
    obtain rfl := Option.some.inj h
    exact hes.put ((hes.find? hfound).entries.table _)
  · exact absurd h (by simp)

theorem ordered_extendIn (key : String) : KeepsOrder (extendIn key) := by
  intro kind es es' hes h
  unfold extendIn at h
  split at h
  · obtain rfl := Option.some.inj h
    exact hes.put (.series (by simp) .nil (by simp))
  · next earlier latest hfound =>
    obtain rfl := Option.some.inj h
    have hfound := hes.find? hfound
    refine hes.put (.series (fun n hn => ?_) .nil (by simp))
    rcases List.mem_append.mp hn with hn | hn
    · exact hfound.earlier n hn
    · obtain rfl := List.mem_singleton.mp hn
      exact hfound.latest.table _
  · exact absurd h (by simp)

/-! ## Values -/

theorem ordered_entriesOf {assignments : List (Key × Node)} {es : Entries}
    (hvalues : ∀ a ∈ assignments, a.2.Ordered) (h : entriesOf assignments = some es) :
    es.Ordered :=
  invariant_foldlM (fun _ _ _ ha hes => ordered_assign (hvalues _ ha) _ _ _ _ _ hes) h
    Entries.ordered_nil

theorem yields_itemsUpTo {α : Type} {item : Reader α} {P : α → Prop} (hitem : item.Yields P)
    (close : Char) : (itemsUpTo close item).Yields fun as => ∀ a ∈ as, P a := by
  have hone : (do
      let a ← item
      gap
      return a : Reader α).Yields P :=
    hitem.bind fun _ ha => (Reader.Yields.any gap).bind fun _ _ => Reader.yields_pure ha
  unfold itemsUpTo
  refine (Reader.Yields.any gap).bind fun _ _ => hone.optional.bind fun first hfirst => ?_
  rcases first with - | a
  · exact (Reader.Yields.any _).bind fun _ _ => Reader.yields_pure (by simp)
  · have hmore := ((Reader.Yields.any (Reader.char ',')).bind fun _ _ =>
      (Reader.Yields.any gap).bind fun _ _ => hone).many
    refine hmore.bind fun more hmore => (Reader.Yields.any _).bind fun _ _ =>
      (Reader.Yields.any _).bind fun _ _ => Reader.yields_pure ?_
    exact List.forall_mem_cons.mpr ⟨hfirst a rfl, hmore⟩

theorem yields_assignment {value : Reader Node} (hvalue : value.Yields Node.Ordered) :
    (assignment value).Yields fun a => a.2.Ordered :=
  (Reader.Yields.any key).bind fun _ _ => (Reader.Yields.any blanks).bind fun _ _ =>
    (Reader.Yields.any _).bind fun _ _ => (Reader.Yields.any blanks).bind fun _ _ =>
      hvalue.bind fun _ hv => Reader.yields_pure hv

/-- Every value that can be read is in order, to any depth. -/
theorem yields_valueWithin (depth : Nat) : (valueWithin depth).Yields Node.Ordered := by
  have hscalar : (Node.scalar <$> scalar).Yields Node.Ordered :=
    (Reader.Yields.any scalar).map fun s _ => .scalar s
  induction depth with
  | zero => exact hscalar
  | succ depth ih =>
    have harray : (array (valueWithin depth)).Yields Node.Ordered :=
      (Reader.Yields.any _).bind fun _ _ => (yields_itemsUpTo ih ']').bind fun _ hitems =>
        Reader.yields_pure (.list hitems)
    have hinline : (inlineTable (valueWithin depth)).Yields Node.Ordered := by
      refine (Reader.Yields.any _).bind fun _ _ =>
        (yields_itemsUpTo (yields_assignment ih) _).bind fun assignments hvalues => ?_
      refine (Reader.yields_lift (P := Entries.Ordered) fun es hes => ?_).bind fun es hes =>
        Reader.yields_pure (hes.table .inline)
      exact ordered_entriesOf hvalues hes
    exact harray.orElse (hinline.orElse hscalar)

/-! ## Documents -/

/-- The value of a statement, if it has one, is in order. -/
def Statement.Ordered : Statement → Prop
  | assignment _ v => v.Ordered
  | _ => True

theorem yields_statement : statement.Yields Statement.Ordered := by
  have hseries : (Statement.seriesHeader <$> enclosedKey ['[', '['] [']', ']']).Yields
      Statement.Ordered := (Reader.Yields.any _).map fun _ _ => trivial
  have hheader : (Statement.header <$> enclosedKey ['['] [']']).Yields Statement.Ordered :=
    (Reader.Yields.any _).map fun _ _ => trivial
  have hassignment : ((fun a => Statement.assignment a.1 a.2) <$> assignment value).Yields
      Statement.Ordered := (yields_assignment (yields_valueWithin nestingLimit)).map fun _ ha => ha
  exact hseries.orElse (hheader.orElse hassignment)

theorem yields_statements : statements.Yields fun ss => ∀ s ∈ ss, s.Ordered := by
  have hline : statementLine.Yields Statement.Ordered :=
    yields_statement.bind fun _ hs => (Reader.Yields.any lineRest).bind fun _ _ =>
      (Reader.Yields.any gap).bind fun _ _ => Reader.yields_pure hs
  exact (Reader.Yields.any _).bind fun _ _ => (Reader.Yields.any gap).bind fun _ _ => hline.many

theorem ordered_add {d d' : Draft} {s : Statement} (hs : s.Ordered) (h : d.add s = some d')
    (hd : d.root.Ordered) : d'.root.Ordered := by
  have hadded : ∀ {change : TableKind → Entries → Option Entries} {path current : List String},
      KeepsOrder change →
      (do return ⟨← alterAt false change path .headed d.root, current⟩ : Option Draft) = some d' →
      d'.root.Ordered := by
    intro change path current hchange h
    obtain ⟨root, hroot, heq⟩ := Option.bind_eq_some_iff.mp h
    obtain rfl := Option.some.inj heq
    exact ordered_alterAt hchange path _ _ _ hd hroot
  cases s with
  | header k => exact hadded (ordered_openIn k.name) h
  | seriesHeader k => exact hadded (ordered_extendIn k.name) h
  | assignment k v => exact hadded (ordered_assign hs k.path k.name) h

/-- **Every document is in order.**  In each of its tables the entries stand in the order of their
names, each name once. -/
theorem ordered_of_readDocument {text : String} {es : Entries} (h : readDocument text = some es) :
    es.Ordered := by
  obtain ⟨ss, hss, hes⟩ := Option.bind_eq_some_iff.mp h
  obtain ⟨d, hd, rfl⟩ := Option.map_eq_some_iff.mp hes
  have hstatements := yields_statements.whole hss
  exact invariant_foldlM (P := fun d => d.root.Ordered)
    (fun _ s _ hs hd hadd => ordered_add (hstatements s hs) hadd hd) hd Entries.ordered_nil

end Toml

end WriteAhead
