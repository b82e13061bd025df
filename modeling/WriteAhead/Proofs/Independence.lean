/-
# Journals that are independent of each other

Journals that are apart, each on a platform of its own, have nothing to do with each other.  What is
answered about one of them hangs on what was done with this one, and the order in which different
journals are used makes no difference to where a session ends.

Main statements:

* `hasEffect_step` : what an operation on a journal comes to depends on where the journal stands;
* `Apart.standing?_step` : an operation on one journal leaves all others where they stand;
* `Apart.step` : journals stay apart;
* `Apart.step_comm` : operations on two journals can be carried out in either order;
* `interleavings_agree` : all interleavings of what is done with each journal agree.
-/
import Mathlib.Logic.Function.Basic
import WriteAhead.Proofs.Locality
import WriteAhead.Proofs.Moments

namespace WriteAhead

open Program

variable {φ α : Type} {patience : Nat} {decide : Nat → Policy φ} {i j k : Nat}

/-! ## Platforms of their own -/

/-- The policy of one of several platforms.  It decides about the calls made there, from a state of
its own and without a look at the numbers of descriptors, which tell of what else was opened. -/
def Policy.own (decide : Nat → Policy φ) (i : Nat) : Policy (Nat → φ) := fun c σ =>
  let (u, t) := (decide i).blind c (σ i)
  (u, Function.update σ i t)

/-- The native platforms of one machine, each with a policy and a state of its own. -/
def Posix.platforms (patience : Nat) (decide : Nat → Policy φ) (i : Nat) :
    Platform System (Machine × (Nat → φ)) :=
  Posix.platform patience (Policy.own decide i)

/-- A run on one of several platforms is a run under its policy alone. -/
theorem run_own (decide : Nat → Policy φ) (i : Nat) (p : SystemProgram α) (m : Machine)
    (σ : Nat → φ) :
    let r := p.run (decide i).blind.handler (m, σ i)
    (p.run (Policy.own decide i).handler (m, σ)).value = r.value ∧
      (p.run (Policy.own decide i).handler (m, σ)).world =
        (r.world.1, Function.update σ i r.world.2) := by
  induction p generalizing m σ with
  | done a => exact ⟨rfl, congrArg (Prod.mk m) (Function.update_eq_self i σ).symm⟩
  | note e next ih => exact ih m σ
  | ask c next ih =>
    let u := ((decide i).blind c (σ i)).1
    let t := ((decide i).blind c (σ i)).2
    obtain ⟨hvalue, hworld⟩ := ih (m.answer u c).1 (m.answer u c).2 (Function.update σ i t)
    rw [Function.update_self] at hvalue hworld
    rw [Function.update_idem] at hworld
    exact ⟨hvalue, hworld⟩

/-- What is determined under the policy of a platform is determined there among other platforms. -/
theorem Determined.own {may : Change → Prop} {P : Machine → Prop} {p : SystemProgram α} {t : φ}
    (h : Determined (decide i) may (fun _ : Unit => P) (fun _ => p) t) :
    ∃ a t' ys, (∀ y ∈ ys, may y) ∧ ∀ m σ, P m → σ i = t →
      (p.run (Policy.own decide i).handler (m, σ)).value = a ∧
        (p.run (Policy.own decide i).handler (m, σ)).world =
          (m.after ys, Function.update σ i t') := by
  obtain ⟨a, t', ys, hys, hrun⟩ := h
  refine ⟨a, t', ys, hys, ?_⟩
  rintro m σ hm rfl
  obtain ⟨hvalue, hworld⟩ := hrun () m hm
  refine ⟨(run_own decide i p m σ).1.trans hvalue, (run_own decide i p m σ).2.trans ?_⟩
  rw [hworld]

/-! ## Where a journal stands -/

/-- The journal that an operation uses or ends; an opening is about none. -/
def Operation.journal? : Operation → Option Nat
  | .openForWrite _ _ _ _ _ | .openForRead _ _ => none
  | .write j _ _ | .read j _ _ | .truncate j _ | .size j | .close j | .drop j => some j

namespace Session

/-- All that an operation on a journal depends on. -/
structure Standing (φ : Type) where
  /-- The journal itself. -/
  live : LiveJournal
  /-- What it sees of the machine. -/
  view : View
  /-- The state of its platform. -/
  state : φ

variable {I : Interface} {W : Type} {s s' : Session (Machine × (Nat → φ))} {op op' : Operation}
  {x y : Standing φ} {l : LiveJournal}

/-- Where a journal of a session stands, if it is open. -/
def standing? (s : Session (Machine × (Nat → φ))) (j : Nat) : Option (Standing φ) :=
  (s.live? j).map fun l => ⟨l, s.world.1.view l.handle, s.world.2 l.on⟩

theorem standing?_eq_none_iff : s.standing? j = none ↔ s.live? j = none := Option.map_eq_none_iff

theorem standing?_of_live? (h : s.live? j = some l) :
    s.standing? j = some ⟨l, s.world.1.view l.handle, s.world.2 l.on⟩ := by
  unfold standing?
  rw [h]
  rfl

theorem live?_set_self {s : Session W} (h : s.live? j = some l) (left : Option LiveJournal)
    (w : W) : (Session.mk w (s.journals.set j left)).live? j = left := by
  have hlt : j < s.journals.length := (List.getElem?_eq_some_iff.mp (live?_eq_some h)).1
  unfold live?
  rw [List.getElem?_set_self hlt]
  rfl

theorem live?_set_of_ne (s : Session W) (h : k ≠ j) (left : Option LiveJournal) (w : W) :
    (Session.mk w (s.journals.set j left)).live? k = s.live? k := by
  unfold live?
  rw [List.getElem?_set_ne (Ne.symm h)]

theorem set_of_live? {s : Session W} (h : s.live? j = some l) :
    s.journals.set j (some l) = s.journals := by
  obtain ⟨hlt, hl⟩ := List.getElem?_eq_some_iff.mp (live?_eq_some h)
  rw [← hl]
  exact List.set_getElem_self hlt

/-! ## What an operation comes to -/

/-- What an operation on a journal comes to. -/
structure Effect (φ : Type) where
  answer : Outcome Answer
  changes : List Change
  /-- The state that the platform of the journal is left in. -/
  state : φ
  /-- What is left of the journal. -/
  left : Option LiveJournal

/-- The effect is one that an operation on this journal can have: a journal that stays open was only
used. -/
structure Effect.Fits (e : Effect φ) (l : LiveJournal) (v : View) : Prop where
  made : ∀ y ∈ e.changes, y.MadeBy v
  left : e.left = none ∨ e.left = some l ∧ ∀ y ∈ e.changes, y.Uses v

/-- The session after an operation on the journal `j` that had this effect on the platform `i`. -/
def Effect.on (e : Effect φ) (j i : Nat) (s : Session (Machine × (Nat → φ))) :
    Session (Machine × (Nat → φ)) :=
  ⟨(s.world.1.after e.changes, Function.update s.world.2 i e.state), s.journals.set j e.left⟩

/-- The operation that `r` records has one effect in all sessions in which the journal `j` stands
as `x` says. -/
def HasEffect (j : Nat) (x : Standing φ)
    (r : Session (Machine × (Nat → φ)) → Record System (Machine × (Nat → φ))) : Prop :=
  ∃ e : Effect φ, e.Fits x.live x.view ∧ ∀ s, s.world.1.Orderly → s.standing? j = some x →
    (r s).answer = some e.answer ∧ (r s).after = e.on j x.live.on s

/-- Using a journal has an effect that depends on where the journal stands. -/
theorem hasEffect_used {d : Descriptor} {p : Handle → StepProgram α}
    (answer : α → Outcome Answer) (hd : x.live.handle.descriptor = some d)
    (hp : (p x.live.handle).Asks (x.live.handle.Uses d)) (op : Operation) (j : Nat) :
    HasEffect j x fun s => s.used (Posix.platforms patience decide) op j p answer := by
  have hdetermined : Determined (decide x.live.on) (Change.Uses x.view)
      (fun _ : Unit => Looks x.live.handle x.view)
      (fun _ => Posix.native patience (p x.live.handle)) x.state :=
    Posix.determined_native_of_uses hd hp patience x.view x.state
  obtain ⟨a, t, ys, hys, hrun⟩ := hdetermined.own
  refine ⟨⟨answer a, ys, t, some x.live⟩, ⟨fun y hy => (hys y hy).madeBy, .inr ⟨rfl, hys⟩⟩, ?_⟩
  intro s horderly hs
  obtain ⟨l, hl, rfl⟩ := Option.map_eq_some_iff.mp hs
  obtain ⟨hvalue, hworld⟩ := hrun s.world.1 s.world.2 ⟨horderly, rfl⟩ rfl
  simp only [used, hl, Posix.platforms, Posix.run_platform, Effect.on, set_of_live? hl]
  exact ⟨congrArg (fun a => some (answer a)) hvalue, congrArg (Session.mk · s.journals) hworld⟩

/-- Ending a journal has an effect that depends on where the journal stands. -/
theorem hasEffect_ended {p : Features → Handle → StepProgram α} (answer : α → Outcome Answer)
    (hp : Determined (decide x.live.on) (Change.MadeBy x.view)
      (fun _ : Unit => Looks x.live.handle x.view)
      (fun _ => Posix.native patience (p Features.posix x.live.handle)) x.state)
    (op : Operation) (j : Nat) :
    HasEffect j x fun s => s.ended (Posix.platforms patience decide) op j p answer := by
  obtain ⟨a, t, ys, hys, hrun⟩ := hp.own
  refine ⟨⟨answer a, ys, t, none⟩, ⟨hys, .inl rfl⟩, ?_⟩
  intro s horderly hs
  obtain ⟨l, hl, rfl⟩ := Option.map_eq_some_iff.mp hs
  obtain ⟨hvalue, hworld⟩ := hrun s.world.1 s.world.2 ⟨horderly, rfl⟩ rfl
  simp only [ended, hl]
  exact ⟨congrArg (fun a => some (answer a)) hvalue,
    congrArg (Session.mk · (s.journals.set j none)) hworld⟩

/-- What an operation on a journal comes to depends on where the journal stands. -/
theorem hasEffect_step (patience : Nat) (decide : Nat → Policy φ) (hop : op.journal? = some j)
    (hd : x.live.handle.descriptor ≠ none) :
    HasEffect j x fun s => s.step (Posix.platforms patience decide) op := by
  obtain ⟨d, hd⟩ := Option.ne_none_iff_exists'.mp hd
  cases op with
  | openForWrite | openForRead => exact absurd hop (by simp [Operation.journal?])
  | write j' bytes offset =>
    obtain rfl : j' = j := Option.some.inj hop
    exact hasEffect_used _ hd (Handle.asks_uses_write hd bytes offset) _ j'
  | read j' buffer offset =>
    obtain rfl : j' = j := Option.some.inj hop
    exact hasEffect_used _ hd (Handle.asks_uses_read hd buffer offset) _ j'
  | truncate j' size =>
    obtain rfl : j' = j := Option.some.inj hop
    exact hasEffect_used _ hd (Handle.asks_uses_truncate hd size) _ j'
  | size j' =>
    obtain rfl : j' = j := Option.some.inj hop
    exact hasEffect_used _ hd (Handle.asks_uses_size hd) _ j'
  | close j' =>
    obtain rfl : j' = j := Option.some.inj hop
    exact hasEffect_ended _ (Posix.determined_handleClose hd patience x.view x.state) _ j'
  | drop j' =>
    obtain rfl : j' = j := Option.some.inj hop
    exact hasEffect_ended _ (Posix.determined_handleDrop hd patience x.view x.state) _ j'

theorem journal_step (platforms : Nat → Platform I W) (s : Session W) (hop : op.journal? = some j) :
    (s.step platforms op).journal = j := by
  cases op with
  | openForWrite | openForRead => exact absurd hop (by simp [Operation.journal?])
  | write | read | truncate | size =>
    obtain rfl := Option.some.inj hop
    simp only [step, used]
    split <;> rfl
  | close | drop =>
    obtain rfl := Option.some.inj hop
    simp only [step, ended]
    split <;> rfl

/-- An operation on a journal that is not open does nothing. -/
theorem step_of_live?_eq_none (platforms : Nat → Platform I W) {s : Session W}
    (hop : op.journal? = some j) (h : s.live? j = none) :
    (s.step platforms op).answer = none ∧ (s.step platforms op).after = s := by
  cases op with
  | openForWrite | openForRead => exact absurd hop (by simp [Operation.journal?])
  | write | read | truncate | size =>
    obtain rfl := Option.some.inj hop
    simp only [step, used, h, and_self]
  | close | drop =>
    obtain rfl := Option.some.inj hop
    simp only [step, ended, h, and_self]

/-! ## Journals that are apart -/

/-- The open journals of a session have nothing to do with each other: any two of them are on
platforms of their own, and they have other descriptors, files and entries. -/
structure Apart (s : Session (Machine × (Nat → φ))) : Prop where
  orderly : s.world.1.Orderly
  held : ∀ j x, s.standing? j = some x → x.live.handle.descriptor ≠ none
  apart : ∀ j k x y, j ≠ k → s.standing? j = some x → s.standing? k = some y →
    x.live.on ≠ y.live.on ∧ x.view.Apart y.view

/-- A session in which two journals are open, on two platforms, that do not depend on each other. -/
theorem Apart.of_two {m : Machine} {σ : Nat → φ} {l l' : LiveJournal} (horderly : m.Orderly)
    (hheld : l.handle.descriptor ≠ none) (hheld' : l'.handle.descriptor ≠ none)
    (hon : l.on ≠ l'.on) (hview : (m.view l.handle).Apart (m.view l'.handle))
    (hview' : (m.view l'.handle).Apart (m.view l.handle)) :
    (Session.mk (m, σ) [some l, some l']).Apart := by
  have hcases : ∀ j x, (Session.mk (m, σ) [some l, some l']).standing? j = some x →
      (j = 0 ∧ x = ⟨l, m.view l.handle, σ l.on⟩) ∨
        (j = 1 ∧ x = ⟨l', m.view l'.handle, σ l'.on⟩) := by
    intro j x hx
    match j with
    | 0 => exact .inl ⟨rfl, (Option.some.inj hx).symm⟩
    | 1 => exact .inr ⟨rfl, (Option.some.inj hx).symm⟩
    | j + 2 => exact absurd hx (by simp [standing?, live?])
  refine ⟨horderly, ?_, ?_⟩
  · intro j x hx
    rcases hcases j x hx with ⟨rfl, rfl⟩ | ⟨rfl, rfl⟩
    · exact hheld
    · exact hheld'
  · intro j k x y hne hx hy
    rcases hcases j x hx with ⟨rfl, rfl⟩ | ⟨rfl, rfl⟩ <;>
      rcases hcases k y hy with ⟨rfl, rfl⟩ | ⟨rfl, rfl⟩
    · exact absurd rfl hne
    · exact ⟨hon, hview⟩
    · exact ⟨Ne.symm hon, hview'⟩
    · exact absurd rfl hne

variable {e : Effect φ}

/-- The effect of an operation on one journal leaves all others where they stand. -/
theorem Apart.standing?_on_of_ne (h : s.Apart) (hx : s.standing? j = some x)
    (he : e.Fits x.live x.view) (hne : k ≠ j) :
    (e.on j x.live.on s).standing? k = s.standing? k := by
  have hlive : (e.on j x.live.on s).live? k = s.live? k := live?_set_of_ne s hne _ _
  cases hl : s.live? k with
  | none =>
    rw [standing?_eq_none_iff.mpr hl, standing?_eq_none_iff, hlive]
    exact hl
  | some l =>
    rw [standing?_of_live? hl, standing?_of_live? (hlive.trans hl)]
    obtain ⟨hon, hview⟩ := h.apart k j _ x hne (standing?_of_live? hl) hx
    have hseen : (s.world.1.after e.changes).view l.handle = s.world.1.view l.handle :=
      Machine.view_after_of_unseen fun y hy => hview.unseenBy (he.made y hy)
    have hstate : Function.update s.world.2 x.live.on e.state l.on = s.world.2 l.on :=
      Function.update_of_ne hon _ _
    show some (Standing.mk l ((s.world.1.after e.changes).view l.handle)
      (Function.update s.world.2 x.live.on e.state l.on)) = _
    rw [hseen, hstate]

/-- Where a journal stands after an operation on it, if it is still open. -/
theorem standing?_on_self (hx : s.standing? j = some x) (he : e.Fits x.live x.view) :
    (e.on j x.live.on s).standing? j =
      e.left.map fun l => ⟨l, x.view.after e.changes, e.state⟩ := by
  obtain ⟨l, hl, rfl⟩ := Option.map_eq_some_iff.mp hx
  have hlive : (e.on j l.on s).live? j = e.left := live?_set_self hl _ _
  rcases he.left with hnone | ⟨hleft, huses⟩
  · rw [hnone] at hlive ⊢
    exact standing?_eq_none_iff.mpr hlive
  · rw [hleft] at hlive ⊢
    have hview : (s.world.1.after e.changes).view l.handle =
        (s.world.1.view l.handle).after e.changes := Machine.view_after_of_uses huses
    have hstate : Function.update s.world.2 l.on e.state l.on = e.state :=
      Function.update_self _ _ _
    rw [standing?_of_live? hlive, Option.map_some, ← hview]
    exact congrArg (fun t => some (Standing.mk l _ t)) hstate

/-- A journal that is open after an operation was open before it, and has at most made changes while
it stayed open. -/
theorem Apart.exists_of_standing?_on (h : s.Apart) (hx : s.standing? j = some x)
    (he : e.Fits x.live x.view) (hy : (e.on j x.live.on s).standing? k = some y) :
    ∃ z ys, s.standing? k = some z ∧ y.live = z.live ∧ y.view = z.view.after ys := by
  by_cases hk : k = j
  · subst hk
    rw [standing?_on_self hx he] at hy
    obtain ⟨l, hl, rfl⟩ := Option.map_eq_some_iff.mp hy
    rcases he.left with hnone | ⟨hleft, -⟩
    · rw [hnone] at hl
      exact absurd hl (by simp)
    · rw [hleft] at hl
      exact ⟨x, e.changes, hx, (Option.some.inj hl).symm, rfl⟩
  · rw [h.standing?_on_of_ne hx he hk] at hy
    exact ⟨y, [], hy, rfl, rfl⟩

theorem Apart.on (h : s.Apart) (hx : s.standing? j = some x) (he : e.Fits x.live x.view) :
    (e.on j x.live.on s).Apart where
  orderly := h.orderly.after e.changes
  held := by
    intro k y hy
    obtain ⟨z, ys, hz, hlive, -⟩ := h.exists_of_standing?_on hx he hy
    rw [hlive]
    exact h.held k z hz
  apart := by
    intro k k' y y' hne hy hy'
    obtain ⟨z, ys, hz, hlive, hview⟩ := h.exists_of_standing?_on hx he hy
    obtain ⟨z', ys', hz', hlive', hview'⟩ := h.exists_of_standing?_on hx he hy'
    obtain ⟨hon, hapart⟩ := h.apart k k' z z' hne hz hz'
    rw [hlive, hlive', hview, hview']
    exact ⟨hon, (hapart.after_left ys).after_right ys'⟩

/-! ## One operation among others -/

/-- An operation on a journal does nothing, if the journal is not open, or it has an effect. -/
theorem Apart.step_cases (h : s.Apart) (patience : Nat) (decide : Nat → Policy φ)
    (hop : op.journal? = some j) :
    (s.step (Posix.platforms patience decide) op).after = s ∨
      ∃ x e, s.standing? j = some x ∧ e.Fits x.live x.view ∧
        (s.step (Posix.platforms patience decide) op).after = Effect.on e j x.live.on s := by
  cases hx : s.standing? j with
  | none => exact .inl (step_of_live?_eq_none _ hop (standing?_eq_none_iff.mp hx)).2
  | some x =>
    obtain ⟨e, he, heffect⟩ := hasEffect_step patience decide hop (h.held j x hx)
    exact .inr ⟨x, e, rfl, he, (heffect s h.orderly hx).2⟩

/-- Journals stay apart. -/
theorem Apart.step (h : s.Apart) (patience : Nat) (decide : Nat → Policy φ)
    (hop : op.journal? = some j) : (s.step (Posix.platforms patience decide) op).after.Apart := by
  rcases h.step_cases patience decide hop with hafter | ⟨x, e, hx, he, hafter⟩
  · rw [hafter]
    exact h
  · rw [hafter]
    exact h.on hx he

/-- An operation on one journal leaves all others where they stand. -/
theorem Apart.standing?_step (h : s.Apart) (patience : Nat) (decide : Nat → Policy φ)
    (hop : op.journal? = some j) (hne : k ≠ j) :
    (s.step (Posix.platforms patience decide) op).after.standing? k = s.standing? k := by
  rcases h.step_cases patience decide hop with hafter | ⟨x, e, hx, he, hafter⟩
  · rw [hafter]
  · rw [hafter]
    exact h.standing?_on_of_ne hx he hne

/-- What is answered to an operation, and where it leaves its journal, is the same in all sessions
in which the journal stands where it does. -/
theorem Apart.step_congr (h : s.Apart) (h' : s'.Apart) (patience : Nat) (decide : Nat → Policy φ)
    (hop : op.journal? = some j) (heq : s.standing? j = s'.standing? j) :
    let r := s.step (Posix.platforms patience decide) op
    let r' := s'.step (Posix.platforms patience decide) op
    r.answer = r'.answer ∧ r.after.standing? j = r'.after.standing? j := by
  intro r r'
  cases hx : s.standing? j with
  | none =>
    obtain ⟨hanswer, hafter⟩ := step_of_live?_eq_none (Posix.platforms patience decide) hop
      (standing?_eq_none_iff.mp hx)
    obtain ⟨hanswer', hafter'⟩ := step_of_live?_eq_none (Posix.platforms patience decide) hop
      (standing?_eq_none_iff.mp (heq.symm.trans hx))
    rw [hanswer, hanswer', hafter, hafter']
    exact ⟨rfl, heq⟩
  | some x =>
    have hx' : s'.standing? j = some x := heq.symm.trans hx
    obtain ⟨e, he, heffect⟩ := hasEffect_step patience decide hop (h.held j x hx)
    obtain ⟨hanswer, hafter⟩ := heffect s h.orderly hx
    obtain ⟨hanswer', hafter'⟩ := heffect s' h'.orderly hx'
    rw [hanswer, hanswer', hafter, hafter', standing?_on_self hx he, standing?_on_self hx' he]
    exact ⟨rfl, rfl⟩

/-- Operations on two journals can be carried out in either order. -/
theorem Apart.step_comm (h : s.Apart) (patience : Nat) (decide : Nat → Policy φ)
    (hop : op.journal? = some j) (hop' : op'.journal? = some k) (hne : j ≠ k) :
    let platforms := Posix.platforms patience decide
    ((s.step platforms op).after.step platforms op').after =
      ((s.step platforms op').after.step platforms op).after := by
  intro platforms
  have hj : (s.step platforms op').after.standing? j = s.standing? j :=
    h.standing?_step patience decide hop' hne
  have hk : (s.step platforms op).after.standing? k = s.standing? k :=
    h.standing?_step patience decide hop (Ne.symm hne)
  have horderly := (h.step patience decide hop).orderly
  have horderly' := (h.step patience decide hop').orderly
  cases hx : s.standing? j with
  | none =>
    rw [(step_of_live?_eq_none platforms hop (standing?_eq_none_iff.mp hx)).2,
      (step_of_live?_eq_none platforms hop (standing?_eq_none_iff.mp (hj.trans hx))).2]
  | some x =>
    cases hy : s.standing? k with
    | none =>
      rw [(step_of_live?_eq_none platforms hop' (standing?_eq_none_iff.mp hy)).2,
        (step_of_live?_eq_none platforms hop' (standing?_eq_none_iff.mp (hk.trans hy))).2]
    | some y =>
      obtain ⟨e, he, heffect⟩ := hasEffect_step patience decide hop (h.held j x hx)
      obtain ⟨e', he', heffect'⟩ := hasEffect_step patience decide hop' (h.held k y hy)
      obtain ⟨hon, hview⟩ := h.apart j k x y hne hx hy
      rw [(heffect' _ horderly (hk.trans hy)).2, (heffect _ horderly' (hj.trans hx)).2,
        (heffect s h.orderly hx).2, (heffect' s h.orderly hy).2]
      unfold Effect.on
      rw [hview.after_comm he.made he'.made, Function.update_comm hon, List.set_comm _ _ hne]

/-! ## Runs -/

/-- The operations are an interleaving of sequences of operations, one for each journal. -/
def Interleaves (ops : List Operation) (sequence : Nat → List Operation) : Prop :=
  (∀ op ∈ ops, op.journal? ≠ none) ∧ ∀ j, ops.filter (·.journal? = some j) = sequence j

theorem Interleaves.eq_nil {ops : List Operation} {sequence : Nat → List Operation}
    (h : Interleaves ops sequence) (hnil : Interleaves [] sequence) : ops = [] := by
  refine List.eq_nil_iff_forall_not_mem.mpr fun op hmem => ?_
  obtain ⟨j, hop⟩ := Option.ne_none_iff_exists'.mp (h.1 op hmem)
  have hfilter : op ∈ ops.filter (·.journal? = some j) :=
    List.mem_filter.mpr ⟨hmem, by simpa using hop⟩
  rw [h.2 j, ← hnil.2 j] at hfilter
  exact absurd hfilter List.not_mem_nil

/-- What comes first in one interleaving comes in another one of the same sequences after operations
on other journals only, and without it the two are interleavings of the same sequences still. -/
theorem Interleaves.exists_first {ops rest : List Operation} {sequence : Nat → List Operation}
    (h : Interleaves ops sequence) (hfirst : Interleaves (op :: rest) sequence)
    (hop : op.journal? = some j) :
    ∃ before later, ops = before ++ op :: later ∧
      (∀ op' ∈ before, op'.journal? ≠ none ∧ op'.journal? ≠ some j) ∧
      ∃ others, Interleaves rest others ∧ Interleaves (before ++ later) others := by
  have hown : ops.filter (·.journal? = some j) = op :: rest.filter (·.journal? = some j) := by
    rw [h.2 j, ← hfirst.2 j, List.filter_cons_of_pos (by simpa using hop)]
  obtain ⟨before, later, rfl, hbefore, -, hlater⟩ := List.filter_eq_cons_iff.mp hown
  have hsome : ∀ op' ∈ before ++ later, op'.journal? ≠ none := by
    intro op' hmem
    rcases List.mem_append.mp hmem with hmem | hmem
    · exact h.1 op' (List.mem_append_left _ hmem)
    · exact h.1 op' (List.mem_append_right _ (List.mem_cons_of_mem _ hmem))
  refine ⟨before, later, rfl, fun op' hmem => ?_, fun k => rest.filter (·.journal? = some k),
    ⟨fun op' hmem => hfirst.1 op' (List.mem_cons_of_mem _ hmem), fun _ => rfl⟩, hsome, fun k => ?_⟩
  · exact ⟨hsome op' (List.mem_append_left _ hmem), by simpa using hbefore op' hmem⟩
  · by_cases hk : k = j
    · subst hk
      rw [List.filter_append, List.filter_eq_nil_iff.mpr hbefore, List.nil_append, hlater]
    · have hskip : ∀ ops : List Operation, (op :: ops).filter (·.journal? = some k) =
          ops.filter (·.journal? = some k) := by
        intro ops
        rw [List.filter_cons_of_neg (by simpa [hop] using Ne.symm hk)]
      have hsame : (before ++ op :: later).filter (·.journal? = some k) =
          (op :: rest).filter (·.journal? = some k) := by
        rw [h.2 k, hfirst.2 k]
      rw [List.filter_append, hskip, hskip, ← List.filter_append] at hsame
      exact hsame

/-- Among other operations, those on a journal are answered as they are alone. -/
theorem Apart.answers_run (h : s.Apart) (h' : s'.Apart) (patience : Nat) (decide : Nat → Policy φ)
    (heq : s.standing? j = s'.standing? j) {ops : List Operation}
    (hops : ∀ op ∈ ops, op.journal? ≠ none) :
    (recordsOf j (run (Posix.platforms patience decide) s ops)).map (·.answer) =
      (run (Posix.platforms patience decide) s' (ops.filter (·.journal? = some j))).map
        (·.answer) := by
  induction ops generalizing s s' with
  | nil => rfl
  | cons op rest ih =>
    obtain ⟨k, hop⟩ := Option.ne_none_iff_exists'.mp (hops op List.mem_cons_self)
    have hrest : ∀ op ∈ rest, op.journal? ≠ none :=
      fun op hmem => hops op (List.mem_cons_of_mem _ hmem)
    let r := s.step (Posix.platforms patience decide) op
    have hjournal : r.journal = k := journal_step _ s hop
    have hafter : r.after.Apart := h.step patience decide hop
    show (recordsOf j (r :: run _ r.after rest)).map _ = _
    unfold recordsOf
    by_cases hk : k = j
    · subst hk
      obtain ⟨hanswer, hstanding⟩ := h.step_congr h' patience decide hop heq
      rw [List.filter_cons_of_pos (by simpa using hjournal),
        List.filter_cons_of_pos (by simpa using hop)]
      refine congrArg₂ List.cons hanswer ?_
      exact ih hafter (h'.step patience decide hop) hstanding hrest
    · have hstanding : r.after.standing? j = s.standing? j :=
        h.standing?_step patience decide hop (Ne.symm hk)
      rw [List.filter_cons_of_neg (by simpa [hjournal] using hk),
        List.filter_cons_of_neg (by simpa [hop] using hk)]
      exact ih hafter h' (hstanding.trans heq) hrest

/-- An operation can be carried out before all that is done with other journals. -/
theorem Apart.final_of_first (h : s.Apart) (patience : Nat) (decide : Nat → Policy φ)
    (hop : op.journal? = some j) {before : List Operation}
    (hbefore : ∀ op' ∈ before, op'.journal? ≠ none ∧ op'.journal? ≠ some j)
    (later : List Operation) :
    final (Posix.platforms patience decide) s (before ++ op :: later) =
      final (Posix.platforms patience decide) s (op :: (before ++ later)) := by
  induction before generalizing s with
  | nil => rfl
  | cons op' rest ih =>
    obtain ⟨hsome, hother⟩ := hbefore op' List.mem_cons_self
    obtain ⟨k, hop'⟩ := Option.ne_none_iff_exists'.mp hsome
    have hne : j ≠ k := by
      rintro rfl
      exact hother hop'
    let platforms := Posix.platforms patience decide
    calc final platforms s (op' :: rest ++ op :: later)
        = final platforms (s.step platforms op').after (rest ++ op :: later) := rfl
      _ = final platforms (s.step platforms op').after (op :: (rest ++ later)) :=
          ih (h.step patience decide hop') fun x hx => hbefore x (List.mem_cons_of_mem _ hx)
      _ = final platforms ((s.step platforms op').after.step platforms op).after
            (rest ++ later) := rfl
      _ = final platforms ((s.step platforms op).after.step platforms op').after
            (rest ++ later) := by rw [h.step_comm patience decide hop hop' hne]
      _ = final platforms s (op :: (op' :: rest ++ later)) := rfl

/-- Two interleavings of the same sequences end in the same session. -/
theorem Apart.final_congr (h : s.Apart) (patience : Nat) (decide : Nat → Policy φ)
    {ops ops' : List Operation} {sequence : Nat → List Operation} (hops : Interleaves ops sequence)
    (hops' : Interleaves ops' sequence) :
    final (Posix.platforms patience decide) s ops =
      final (Posix.platforms patience decide) s ops' := by
  induction ops generalizing s ops' sequence with
  | nil => rw [hops'.eq_nil hops]
  | cons op rest ih =>
    obtain ⟨j, hop⟩ := Option.ne_none_iff_exists'.mp (hops.1 op List.mem_cons_self)
    obtain ⟨before, later, rfl, hbefore, others, hrest, hothers⟩ := hops'.exists_first hops hop
    rw [h.final_of_first patience decide hop hbefore later]
    exact ih (h.step patience decide hop) hrest hothers

/-- Journals that are apart are independent of each other.  Of however many journals the operations
are interleaved, each journal answers as it does when its own operations are carried out alone; and
all interleavings of the same operations end in the same session, with the same tree. -/
theorem interleavings_agree (patience : Nat) (decide : Nat → Policy φ) (h : s.Apart)
    {ops : List Operation} {sequence : Nat → List Operation} (hops : Interleaves ops sequence) :
    let platforms := Posix.platforms patience decide
    (∀ j, (recordsOf j (run platforms s ops)).map (·.answer) =
        (run platforms s (sequence j)).map (·.answer)) ∧
      ∀ ops', Interleaves ops' sequence → final platforms s ops' = final platforms s ops := by
  intro platforms
  refine ⟨fun j => ?_, fun ops' hops' => h.final_congr patience decide hops' hops⟩
  rw [← hops.2 j]
  exact h.answers_run h patience decide rfl hops.1

/-- Two journals that are open on a machine with two files: one of a platform where nothing fails,
which is removed when it is closed, and one of a platform that transfers one byte at a time. -/
def twoJournals : Session (Machine × (Nat → Unit)) :=
  let t := ((FileTree.empty.makeFile [[97]] .empty).1.makeFile [[98]] .empty).1
  let m := ((Machine.ofTree t []).openTarget ⟨[97]⟩ ⟨true, .file 0⟩).2
  ⟨((m.openTarget ⟨[98]⟩ ⟨true, .file 1⟩).2, fun _ => ()),
    [some ⟨0, ⟨some ⟨0, ⟨[97]⟩⟩, some ⟨[97]⟩, true⟩⟩,
      some ⟨1, ⟨some ⟨1, ⟨[98]⟩⟩, some ⟨[98]⟩, false⟩⟩]⟩

/-- The policies of the two platforms. -/
def twoPolicies (i : Nat) : Policy Unit := fun _ t => (if i = 0 then .proceed else .atMost 1, t)

/-- What is done with the two journals. -/
def twoSequences : Nat → List Operation
  | 0 => [.write 0 [1, 2] 0, .close 0]
  | 1 => [.write 1 [3, 4] 1, .truncate 1 8, .drop 1]
  | _ => []

theorem twoJournals_apart : twoJournals.Apart := by
  have hnames : twoJournals.world.1.tree.NamesFile [] ⟨[97]⟩ [[97]] := ⟨[], [97], 0, rfl, rfl⟩
  have hnames' : twoJournals.world.1.tree.NamesFile [] ⟨[98]⟩ [[98]] := ⟨[], [98], 1, rfl, rfl⟩
  refine .of_two ?_ (by simp) (by simp) (by simp) ?_ ?_
  · exact ((Machine.orderly_ofTree _ _).openTarget _ _).openTarget _ _
  · refine Machine.apart_of_files rfl rfl (by simp) rfl rfl (by simp) ?_
    intro p q hp hq
    obtain rfl := Option.some.inj hp
    obtain rfl := Option.some.inj hq
    exact ⟨_, _, hnames, hnames', by decide⟩
  · refine Machine.apart_of_files rfl rfl (by simp) rfl rfl (by simp) ?_
    intro p q hp hq
    obtain rfl := Option.some.inj hp
    obtain rfl := Option.some.inj hq
    exact ⟨_, _, hnames', hnames, by decide⟩

theorem interleavings_agree_of_two_journals :
    let platforms := Posix.platforms 0 twoPolicies
    let ops : List Operation :=
      [.write 1 [3, 4] 1, .write 0 [1, 2] 0, .truncate 1 8, .close 0, .drop 1]
    (twoJournals.Apart ∧ Interleaves ops twoSequences) ∧
      (recordsOf 1 (run platforms twoJournals ops)).map (·.answer) =
        (run platforms twoJournals (twoSequences 1)).map (·.answer) ∧
      final platforms twoJournals (twoSequences 0 ++ twoSequences 1) =
        final platforms twoJournals ops := by
  intro platforms ops
  have hops : Interleaves ops twoSequences := by
    refine ⟨by decide, fun j => ?_⟩
    match j with
    | 0 => rfl
    | 1 => rfl
    | j + 2 => simp [ops, twoSequences, Operation.journal?]
  have hops' : Interleaves (twoSequences 0 ++ twoSequences 1) twoSequences := by
    refine ⟨by decide, fun j => ?_⟩
    match j with
    | 0 => rfl
    | 1 => rfl
    | j + 2 => simp [twoSequences, Operation.journal?]
  obtain ⟨hanswers, hfinal⟩ := interleavings_agree 0 twoPolicies twoJournals_apart hops
  exact ⟨⟨twoJournals_apart, hops⟩, hanswers 1, hfinal _ hops'⟩

end Session

end WriteAhead
