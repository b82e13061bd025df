/-
# Layers of settings

A layer whose names spell no paths, each once, is laid over others name by name: what it has under
a name replaces what was there, unless both are tables.  Documents give such layers, and so do
variables whose names differ by more than their case.

* `Setting.overlay_of_tidy` : what replaces a setting is left as it was;
* `Settings.get_addAll` : what is left under a name;
* `Settings.tidy_ofFile`, `Settings.find?_ofVariables` : the layers of files and variables.
-/
import WriteAhead.Options.Loading
import WriteAhead.Proofs.Documents
import Mathlib.Data.List.Induction
import Mathlib.Data.List.Nodup

namespace WriteAhead

/-! ## Names that spell no paths -/

namespace KeyPath

open Text

/-- The name spells no path: it has neither a point nor an opening bracket. -/
def IsLiteral (name : String) : Prop := '.' ∉ name.toList ∧ '[' ∉ name.toList

instance (name : String) : Decidable (IsLiteral name) := inferInstanceAs (Decidable (_ ∧ _))

theorem partReader_eq_none {cs : List Char} (hpoint : '.' ∉ cs) (hbracket : '[' ∉ cs) :
    partReader cs = none := by
  cases cs with
  | nil => rfl
  | cons c rest =>
    have hchar : ∀ {d : Char}, d ∉ c :: rest → Reader.char d (c :: rest) = none := by
      rintro d hd
      have hne : c ≠ d := fun heq => hd (heq ▸ List.mem_cons_self)
      exact if_neg hne
    unfold partReader indexReader
    show ((Reader.char '.' >>= fun _ => _) (c :: rest)).orElse (fun _ => _) = none
    rw [Reader.bind_apply, hchar hpoint]
    show (PathPart.index <$> (Reader.char '[' >>= fun _ => _)) (c :: rest) = none
    rw [Reader.map_apply, Reader.bind_apply, hchar hbracket]
    rfl

/-- Where no further parts can be taken, a path is a name. -/
theorem reader_of_partReader {cs : List Char}
    (hpart : partReader (cs.dropWhile isNameChar) = none) :
    reader cs = if cs.takeWhile isNameChar = [] then none
      else some (⟨String.ofList (cs.takeWhile isNameChar), []⟩, cs.dropWhile isNameChar) := by
  have hname : nameReader cs = if cs.takeWhile isNameChar = [] then none
      else some (String.ofList (cs.takeWhile isNameChar), cs.dropWhile isNameChar) := by
    unfold nameReader
    rw [Reader.map_apply]
    unfold Reader.run1
    split
    · next hnil => simp [hnil]
    · next hcons =>
      rw [if_neg hcons]
      rfl
  unfold reader
  rw [Reader.bind_apply, hname]
  split
  · rfl
  · simp [Reader.many_of_none _ _ hpart]

/-- A name that spells no path stands for itself, whatever other characters are in it. -/
theorem ofName_of_isLiteral {name : String} (h : IsLiteral name) : ofName name = ⟨name, []⟩ := by
  have hrest : ∀ {c : Char}, c ∉ name.toList → c ∉ name.toList.dropWhile isNameChar :=
    fun hc hmem => hc ((List.dropWhile_suffix _).subset hmem)
  have hreader := reader_of_partReader (partReader_eq_none (hrest h.1) (hrest h.2))
  have hsplit : name.toList.takeWhile isNameChar ++ name.toList.dropWhile isNameChar =
      name.toList := List.takeWhile_append_dropWhile
  unfold ofName Reader.whole
  rw [hreader]
  split
  · next path heq =>
    split at heq
    · exact absurd heq (by simp)
    · obtain ⟨rfl, hdrop⟩ := Prod.mk.inj (Option.some.inj heq)
      rw [hdrop, List.append_nil] at hsplit
      rw [hsplit, String.ofList_toList]
      rfl
  · rfl

end KeyPath

/-! ## Settings by name -/

namespace Settings

variable {s : Settings} {k : String} {v : Setting}

theorem find?_eq_none_iff : s.find? k = none ↔ k ∉ s.map Prod.fst := by
  induction s with
  | nil => simp [find?]
  | cons e rest ih =>
    obtain ⟨k', v'⟩ := e
    rw [find?, List.map_cons, List.mem_cons, not_or, ← ih]
    by_cases hk : k' = k
    · simp [hk]
    · simp [hk, Ne.symm hk]

theorem mem_of_find? (h : s.find? k = some v) : (k, v) ∈ s := by
  induction s with
  | nil => exact absurd h (by simp [find?])
  | cons e rest ih =>
    obtain ⟨k', v'⟩ := e
    unfold find? at h
    split at h
    · next hk =>
      obtain rfl := Option.some.inj h
      exact hk ▸ List.mem_cons_self
    · exact List.mem_cons_of_mem _ (ih h)

theorem put_of_notMem (h : k ∉ s.map Prod.fst) : s.put k v = s ++ [(k, v)] := by
  induction s with
  | nil => rfl
  | cons e rest ih =>
    obtain ⟨k', v'⟩ := e
    have hne : k' ≠ k := fun heq => h (heq ▸ List.mem_cons_self)
    rw [put, if_neg hne, ih fun hmem => h (List.mem_cons_of_mem _ hmem)]
    rfl

theorem map_fst_put_of_mem (h : k ∈ s.map Prod.fst) :
    (s.put k v).map Prod.fst = s.map Prod.fst := by
  induction s with
  | nil => exact absurd h (by simp)
  | cons e rest ih =>
    obtain ⟨k', v'⟩ := e
    unfold put
    split
    · next hk =>
      subst hk
      rfl
    · next hne =>
      have hrest : k ∈ rest.map Prod.fst := (List.mem_cons.mp h).resolve_left (Ne.symm hne)
      rw [List.map_cons, List.map_cons, ih hrest]

theorem nodup_put (h : (s.map Prod.fst).Nodup) : ((s.put k v).map Prod.fst).Nodup := by
  by_cases hk : k ∈ s.map Prod.fst
  · rwa [map_fst_put_of_mem hk]
  · rw [put_of_notMem hk, List.map_append]
    exact h.append (List.nodup_singleton k) (by simpa using hk)

end Settings

/-! ## Laying a layer over others -/

/-- Every table that can be laid over others has each name once.  What is in a list is never laid
over anything. -/
inductive Setting.Tidy : Setting → Prop where
  | vacant : Tidy .vacant
  | plain (p : PlainSetting) (o : Option Origin) : Tidy (.plain p o)
  | list (items : List Setting) (o : Option Origin) : Tidy (.list items o)
  | table {es : Settings} (hnames : (es.map Prod.fst).Nodup) (h : ∀ e ∈ es, Tidy e.2) :
      Tidy (.table es)

namespace Setting

theorem overlayEntries_append {es : Settings} (h : ∀ e ∈ es, overlay .vacant e.2 = e.2)
    {below : Settings} (hnames : ((below ++ es).map Prod.fst).Nodup) :
    overlayEntries below es = below ++ es := by
  induction es generalizing below with
  | nil => simp [overlayEntries]
  | cons e rest ih =>
    obtain ⟨k, v⟩ := e
    have hk : k ∉ below.map Prod.fst := by
      rw [List.map_append, List.nodup_append] at hnames
      exact fun hmem => hnames.2.2 k hmem k List.mem_cons_self rfl
    obtain ⟨hv, hrest⟩ := List.forall_mem_cons.mp h
    rw [overlayEntries, Settings.get, Settings.find?_eq_none_iff.mpr hk, Option.getD_none, hv,
      Settings.put_of_notMem hk, ih hrest (by simpa using hnames)]
    simp

/-- A setting is left as it was when it is laid over what has no entries. -/
theorem overlay_of_tidy {below above : Setting} (h : above.Tidy) (hbelow : below.entries = []) :
    overlay below above = above := by
  induction h generalizing below with
  | vacant | plain | list => rfl
  | @table es hnames _ ih =>
    rw [overlay, hbelow, overlayEntries_append (fun e he => ih e he rfl) (by simpa using hnames)]
    rfl

end Setting

namespace Settings

variable {s source : Settings} {name other : String} {value : Setting}

/-- Each name stands once, and so it does in all tables. -/
structure Tidy (s : Settings) : Prop where
  names : (s.map Prod.fst).Nodup
  settings : ∀ e ∈ s, e.2.Tidy

theorem get_add : (s.add name value).get other =
    if other = (KeyPath.ofName name).root then
      Setting.putAt value (KeyPath.ofName name).parts (s.get other)
    else s.get other := by
  unfold add
  rw [get_put]
  split
  · next heq => rw [heq]
  · rfl

/-- What a layer leaves under a name, where no other name of the layer leads to it. -/
theorem get_addAll (hname : KeyPath.IsLiteral name) (hnames : (source.map Prod.fst).Nodup)
    (hroot : ∀ e ∈ source, (KeyPath.ofName e.1).root = name → e.1 = name) :
    (s.addAll source).get name =
      match source.find? name with
      | some above => Setting.overlay (s.get name) above
      | none => s.get name := by
  induction source generalizing s with
  | nil => rfl
  | cons e rest ih =>
    obtain ⟨k, v⟩ := e
    obtain ⟨hk, hrest⟩ := List.nodup_cons.mp hnames
    obtain ⟨hkroot, hroot⟩ := List.forall_mem_cons.mp hroot
    have hnext : (s.addAll ((k, v) :: rest)).get name = ((s.add k v).addAll rest).get name := rfl
    rw [hnext, ih hrest hroot, get_add, find?]
    by_cases heq : k = name
    · subst heq
      rw [find?_eq_none_iff.mpr hk, KeyPath.ofName_of_isLiteral hname, if_pos rfl, if_pos rfl]
      rfl
    · rw [if_neg heq, if_neg fun h => heq (hkroot h.symm)]

/-- A name of a layer whose names spell no paths leads only to itself. -/
theorem eq_of_root_eq (hliteral : ∀ e ∈ source, KeyPath.IsLiteral e.1) (name : String) :
    ∀ e ∈ source, (KeyPath.ofName e.1).root = name → e.1 = name := by
  intro e he hroot
  rwa [KeyPath.ofName_of_isLiteral (hliteral e he)] at hroot

/-- A tidy layer replaces what has no entries. -/
theorem get_addAll_of_tidy (hname : KeyPath.IsLiteral name) (hsource : source.Tidy)
    (hliteral : ∀ e ∈ source, KeyPath.IsLiteral e.1) (hbelow : (s.get name).entries = []) :
    (s.addAll source).get name = (source.find? name).getD (s.get name) := by
  rw [get_addAll hname hsource.names (eq_of_root_eq hliteral name)]
  cases hfind : source.find? name with
  | none => rfl
  | some above =>
    exact Setting.overlay_of_tidy (hsource.settings _ (mem_of_find? hfind)) hbelow

end Settings

/-! ## The layer of a file -/

namespace Toml

variable {origin : Origin}

theorem toSettings_eq_ok {es : Entries} {ss : Settings} (h : toSettings origin es = .ok ss) :
    ss.map Prod.fst = es.map Prod.fst ∧
      ∀ e' ∈ ss, ∃ e ∈ es, toSetting origin e.2 = .ok e'.2 := by
  induction es generalizing ss with
  | nil =>
    obtain rfl := Except.ok.inj h
    exact ⟨rfl, by simp⟩
  | cons e rest ih =>
    obtain ⟨k, v⟩ := e
    obtain ⟨s, hs, h⟩ := bind_eq_ok_iff.mp h
    obtain ⟨more, hmore, h⟩ := bind_eq_ok_iff.mp h
    obtain rfl := Except.ok.inj h
    obtain ⟨hnames, hsettings⟩ := ih hmore
    refine ⟨congrArg (k :: ·) hnames, List.forall_mem_cons.mpr ⟨⟨_, List.mem_cons_self, hs⟩, ?_⟩⟩
    intro e' he'
    obtain ⟨e, he, hsetting⟩ := hsettings e' he'
    exact ⟨e, List.mem_cons_of_mem _ he, hsetting⟩

theorem nodup_of_pairwise {es : Entries} (h : es.Pairwise (·.1 < ·.1)) :
    (es.map Prod.fst).Nodup :=
  List.pairwise_map.mpr (h.imp fun hlt => ne_of_lt hlt)

/-- A value that is in order gives a tidy setting. -/
theorem tidy_toSetting {n : Node} (hn : n.Ordered) {s : Setting}
    (h : toSetting origin n = .ok s) : s.Tidy := by
  induction hn generalizing s with
  | scalar =>
    obtain ⟨p, -, h⟩ := bind_eq_ok_iff.mp h
    obtain rfl := Except.ok.inj h
    exact .plain p _
  | list =>
    obtain ⟨items, -, h⟩ := bind_eq_ok_iff.mp h
    obtain rfl := Except.ok.inj h
    exact .list items _
  | table kind hnames _ ih =>
    obtain ⟨ss, hss, h⟩ := bind_eq_ok_iff.mp h
    obtain rfl := Except.ok.inj h
    obtain ⟨hsame, hsettings⟩ := toSettings_eq_ok hss
    refine .table (hsame ▸ nodup_of_pairwise hnames) fun e' he' => ?_
    obtain ⟨e, he, hsetting⟩ := hsettings e' he'
    exact ih e he hsetting
  | series =>
    obtain ⟨items, -, h⟩ := bind_eq_ok_iff.mp h
    obtain ⟨latest, -, h⟩ := bind_eq_ok_iff.mp h
    obtain rfl := Except.ok.inj h
    exact .list _ _

end Toml

/-- A file gives a tidy layer. -/
theorem Settings.tidy_ofFile {name : String} {bytes : Bytes} {s : Settings}
    (h : Settings.ofFile name bytes = .ok s) : s.Tidy := by
  unfold Settings.ofFile at h
  split at h
  · exact absurd h (by simp)
  · next es hes =>
    have hes := Toml.ordered_of_readDocument hes
    obtain ⟨hsame, hsettings⟩ := Toml.toSettings_eq_ok (mapError_eq_ok_iff.mp h)
    refine ⟨hsame ▸ Toml.nodup_of_pairwise hes.names, fun e' he' => ?_⟩
    obtain ⟨e, he, hsetting⟩ := hsettings e' he'
    exact Toml.tidy_toSetting (hes.nodes e he) hsetting

theorem OptionsLoader.tidy_fileSettings {l : OptionsLoader} {t : FileTree} {cwd : Location}
    {s : Settings} (h : l.fileSettings t cwd = .ok s) : s.Tidy := by
  unfold OptionsLoader.fileSettings at h
  split at h
  · obtain rfl := Except.ok.inj h
    exact ⟨by simp, by simp⟩
  · split at h
    · exact absurd h (by simp)
    · exact Settings.tidy_ofFile (mapError_eq_ok_iff.mp h)

/-! ## The layer of variables -/

namespace Settings

variable {heading : String} {env : Environment} {v : String × String} {name : String}

theorem ofVariables_concat (heading : String) (env : Environment) (v : String × String) :
    ofVariables heading (env ++ [v]) =
      match nameOf? heading v.1 with
      | some name =>
        (ofVariables heading env).put name (.plain (readText v.2) (some .environment))
      | none => ofVariables heading env := by
  unfold ofVariables
  rw [List.foldl_append]
  rfl

theorem nodup_ofVariables (heading : String) (env : Environment) :
    ((ofVariables heading env).map Prod.fst).Nodup := by
  induction env using List.reverseRecOn with
  | nil => exact List.nodup_nil
  | append_singleton env v ih =>
    rw [ofVariables_concat]
    split
    · exact nodup_put ih
    · exact ih

/-- Under a name, the layer of the variables has what the last variable of this name spells. -/
theorem find?_ofVariables (heading : String) (env : Environment) (name : String) :
    (ofVariables heading env).find? name =
      (env.reverse.find? fun v => nameOf? heading v.1 = some name).map
        fun v => .plain (readText v.2) (some .environment) := by
  induction env using List.reverseRecOn with
  | nil => rfl
  | append_singleton env v ih =>
    rw [ofVariables_concat, List.reverse_append, List.reverse_singleton, List.singleton_append]
    cases hname : nameOf? heading v.1 with
    | none => rw [List.find?_cons_of_neg (by simp [hname]), ih]
    | some k =>
      simp only [find?_put]
      split
      · next heq => rw [List.find?_cons_of_pos (by simp [hname, heq]), Option.map_some]
      · next hne => rw [List.find?_cons_of_neg (by simpa [hname] using Ne.symm hne), ih]

theorem exists_of_mem_ofVariables {e : String × Setting} (he : e ∈ ofVariables heading env) :
    ∃ v ∈ env, nameOf? heading v.1 = some e.1 := by
  have hfind : (ofVariables heading env).find? e.1 ≠ none :=
    fun h => find?_eq_none_iff.mp h (List.mem_map_of_mem he)
  rw [find?_ofVariables] at hfind
  cases hv : env.reverse.find? fun v => nameOf? heading v.1 = some e.1 with
  | none => exact absurd (by rw [hv]; rfl) hfind
  | some v =>
    exact ⟨v, List.mem_reverse.mp (List.mem_of_find?_eq_some hv), by simpa using List.find?_some hv⟩

/-! ### Variables that spell no paths -/

/-- No two variables that give settings have names that differ at most by case. -/
def DistinctVariables (heading : String) (env : Environment) : Prop :=
  env.Pairwise fun v w => (nameOf? heading v.1).isSome = true → Text.lower v.1 ≠ Text.lower w.1

/-- The names of variables that give settings spell no paths. -/
def LiteralVariables (heading : String) (env : Environment) : Prop :=
  ∀ v ∈ env, ∀ rest ∈ after? (headingText heading).toList (Text.lower v.1).toList,
    ¬ ['_', '_'] <:+: rest ∧ '.' ∉ rest ∧ '[' ∉ rest

instance (heading : String) (env : Environment) : Decidable (DistinctVariables heading env) :=
  inferInstanceAs (Decidable (env.Pairwise _))

instance (heading : String) (env : Environment) : Decidable (LiteralVariables heading env) :=
  inferInstanceAs (Decidable (∀ v ∈ env, _))

theorem after?_append (front rest : List Char) : after? front (front ++ rest) = some rest := by
  simp [after?]

theorem pointed_eq_self {cs : List Char} (h : ¬ ['_', '_'] <:+: cs) : pointed cs = cs := by
  fun_induction pointed cs with
  | case1 rest => exact absurd (List.prefix_append ['_', '_'] rest).isInfix h
  | case2 c rest _ ih => rw [ih fun hrest => h (hrest.trans (List.suffix_cons c rest).isInfix)]
  | case3 => rfl

/-- The name of a setting is what follows the heading. -/
theorem nameOf?_eq_some_of_literal (hliteral : LiteralVariables heading env) (hv : v ∈ env)
    (name : String) :
    nameOf? heading v.1 = some name ↔ Text.lower v.1 = headingText heading ++ name := by
  have hpointed : ∀ {rest}, (Text.lower v.1).toList = (headingText heading).toList ++ rest →
      pointed rest = rest := by
    intro rest hrest
    exact pointed_eq_self (hliteral v hv rest (by rw [hrest, after?_append]; rfl)).1
  rw [nameOf?_eq_some_iff]
  constructor
  · rintro ⟨rest, hrest, rfl⟩
    rw [hpointed hrest]
    exact String.toList_injective (by simpa using hrest)
  · intro heq
    have hrest : (Text.lower v.1).toList = (headingText heading).toList ++ name.toList := by
      simp [heq]
    exact ⟨name.toList, hrest, by rw [hpointed hrest, String.ofList_toList]⟩

theorem isLiteral_of_mem_ofVariables (hliteral : LiteralVariables heading env) :
    ∀ e ∈ ofVariables heading env, KeyPath.IsLiteral e.1 := by
  intro e he
  obtain ⟨v, hv, hname⟩ := exists_of_mem_ofVariables he
  have hrest := (nameOf?_eq_some_of_literal hliteral hv _).mp hname
  exact (hliteral v hv e.1.toList (by rw [hrest, String.toList_append, after?_append]; rfl)).2

/-- Where the variables differ, the order in which they are given does not matter. -/
theorem find?_reverse_of_distinct (hdistinct : DistinctVariables heading env)
    (hliteral : LiteralVariables heading env) (name : String) :
    (env.reverse.find? fun v => nameOf? heading v.1 = some name) =
      env.find? fun v => Text.lower v.1 = headingText heading ++ name := by
  induction env with
  | nil => rfl
  | cons v rest ih =>
    obtain ⟨hv, hdistinct⟩ := List.pairwise_cons.mp hdistinct
    have hrest : LiteralVariables heading rest :=
      fun w hw => hliteral w (List.mem_cons_of_mem _ hw)
    have hname := nameOf?_eq_some_of_literal hliteral (List.mem_cons_self (a := v)) name
    rw [List.reverse_cons, List.find?_append, ih hdistinct hrest]
    by_cases heq : Text.lower v.1 = headingText heading ++ name
    · have hnone : rest.find? (fun w => Text.lower w.1 = headingText heading ++ name) = none := by
        refine List.find?_eq_none.mpr fun w hw => ?_
        have hne := hv w hw (Option.isSome_iff_exists.mpr ⟨name, hname.mpr heq⟩)
        simpa [← heq] using Ne.symm hne
      rw [hnone, List.find?_cons_of_pos (by simpa using hname.mpr heq),
        List.find?_cons_of_pos (by simpa using heq)]
      rfl
    · rw [List.find?_cons_of_neg (by simpa using mt hname.mp heq),
        List.find?_cons_of_neg (by simpa using heq)]
      simp

end Settings

end WriteAhead
