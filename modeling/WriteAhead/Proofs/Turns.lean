/-
# Programs that take turns

Two programs run side by side on one world, each as the row of its requests.  A schedule says whose
request is answered next, so that every way to interleave them is a schedule.  Some schedules keep
the programs apart: one of them has ended when the other begins.

Main statements:

* `race_of_goesFirst_left`, `race_of_goesFirst_right` : programs that are kept apart are run one
  after the other;
* `Follows.turn` : a turn of a program that follows a protocol is one step of the protocol;
* `race_invariant` : what every step of either protocol preserves holds in the end, however the
  turns are taken.
-/
import WriteAhead.Proofs.Moments

namespace WriteAhead

namespace Program

variable {I : Interface} {ε α β W Φ Ψ : Type}

/-! ## Turns -/

/-- One turn of a program: its next request is answered.  What is left of it, and the world. -/
def turn (h : Handler I W) : Program I ε α → W → Program I ε α × W
  | done a, w => (done a, w)
  | ask q next, w => (next (h q w).1, (h q w).2)
  | note _ next, w => turn h next w

/-- What two programs that take turns come to. -/
structure Raced (W α β : Type) where
  left : α
  right : β
  world : W

/-- Runs two programs by a schedule, which gives a turn to the left one or else to the right one.
When the schedule is over, the left one is finished first. -/
def race (h : Handler I W) :
    (schedule : List Bool) → Program I ε α → Program I ε β → W → Raced W α β
  | [], p, q, w =>
    let first := p.run h w
    let second := q.run h first.world
    ⟨first.value, second.value, second.world⟩
  | true :: rest, p, q, w => race h rest (p.turn h w).1 q (p.turn h w).2
  | false :: rest, p, q, w => race h rest p (q.turn h w).1 (q.turn h w).2

/-! ## Schedules that keep programs apart -/

/-- The value of a program that asks nothing any more. -/
def ended? : Program I ε α → Option α
  | done a => some a
  | ask _ _ => none
  | note _ next => ended? next

/-- The program on one side of a schedule has ended before the other side is given a turn.  When the
schedule is over, the left side is finished first. -/
def GoesFirst (h : Handler I W) (side : Bool) :
    (schedule : List Bool) → Program I ε α → W → Prop
  | [], p, _ => side = true ∨ p.ended?.isSome
  | turn :: rest, p, w =>
    if turn = side then GoesFirst h side rest (p.turn h w).1 (p.turn h w).2
    else p.ended?.isSome

/-- One of two programs, whichever it is, has ended when the other begins. -/
def KeepsApart (h : Handler I W) (schedule : List Bool) (p : Program I ε α) (q : Program I ε β)
    (w : W) : Prop :=
  GoesFirst h true schedule p w ∨ GoesFirst h false schedule q w

section KeepsApart

variable {h : Handler I W} {schedule : List Bool} {p : Program I ε α} {q : Program I ε β} {a : α}
  {b : β} {w : W}

/-- A turn of a program is the beginning of its run. -/
theorem run_turn (h : Handler I W) (p : Program I ε α) (w : W) :
    ((p.turn h w).1.run h (p.turn h w).2).value = (p.run h w).value ∧
      ((p.turn h w).1.run h (p.turn h w).2).world = (p.run h w).world := by
  induction p with
  | done a => exact ⟨rfl, rfl⟩
  | ask c next ih => exact ⟨rfl, rfl⟩
  | note e next ih => exact ih

theorem run_of_ended? (hp : p.ended? = some a) (h : Handler I W) (w : W) :
    (p.run h w).value = a ∧ (p.run h w).world = w := by
  induction p with
  | done a' => exact ⟨Option.some.inj hp, rfl⟩
  | ask c next ih => exact absurd hp (by simp [ended?])
  | note e next ih => exact ih hp

theorem turn_of_ended? (hp : p.ended? = some a) (h : Handler I W) (w : W) :
    p.turn h w = (done a, w) := by
  induction p with
  | done a' => exact congrArg (done ·, w) (Option.some.inj hp)
  | ask c next ih => exact absurd hp (by simp [ended?])
  | note e next ih => exact ih hp

/-- Beside a left program that has ended, the right one is run alone. -/
theorem race_of_ended_left (hp : p.ended? = some a) :
    race h schedule p q w = ⟨a, (q.run h w).value, (q.run h w).world⟩ := by
  induction schedule generalizing p q w with
  | nil =>
    obtain ⟨hvalue, hworld⟩ := run_of_ended? hp h w
    simp only [race, hvalue, hworld]
  | cons turn rest ih =>
    cases turn with
    | true =>
      rw [race, turn_of_ended? hp]
      exact ih rfl
    | false =>
      obtain ⟨hvalue, hworld⟩ := run_turn h q w
      rw [race, ih hp, hvalue, hworld]

/-- Beside a right program that has ended, the left one is run alone. -/
theorem race_of_ended_right (hq : q.ended? = some b) :
    race h schedule p q w = ⟨(p.run h w).value, b, (p.run h w).world⟩ := by
  induction schedule generalizing p q w with
  | nil =>
    obtain ⟨hvalue, hworld⟩ := run_of_ended? hq h (p.run h w).world
    simp only [race, hvalue, hworld]
  | cons turn rest ih =>
    cases turn with
    | true =>
      obtain ⟨hvalue, hworld⟩ := run_turn h p w
      rw [race, ih hq, hvalue, hworld]
    | false =>
      rw [race, turn_of_ended? hq]
      exact ih rfl

/-- A right program that has ended might as well have been run first. -/
theorem race_of_isSome_ended_right (hq : q.ended?.isSome) :
    let first := q.run h w
    let second := p.run h first.world
    race h schedule p q w = ⟨second.value, first.value, second.world⟩ := by
  obtain ⟨b, hb⟩ := Option.isSome_iff_exists.mp hq
  obtain ⟨hvalue, hworld⟩ := run_of_ended? hb h w
  simp only [race_of_ended_right hb, hvalue, hworld]

theorem race_of_goesFirst_left (hfirst : GoesFirst h true schedule p w) :
    let first := p.run h w
    let second := q.run h first.world
    race h schedule p q w = ⟨first.value, second.value, second.world⟩ := by
  induction schedule generalizing p w with
  | nil => rfl
  | cons turn rest ih =>
    cases turn with
    | true =>
      obtain ⟨hvalue, hworld⟩ := run_turn h p w
      rw [race, ih hfirst, hvalue, hworld]
    | false =>
      obtain ⟨a, ha⟩ := Option.isSome_iff_exists.mp hfirst
      obtain ⟨hvalue, hworld⟩ := run_of_ended? ha h w
      simp only [race_of_ended_left ha, hvalue, hworld]

theorem race_of_goesFirst_right (hfirst : GoesFirst h false schedule q w) :
    let first := q.run h w
    let second := p.run h first.world
    race h schedule p q w = ⟨second.value, first.value, second.world⟩ := by
  induction schedule generalizing q w with
  | nil =>
    -- the left program is finished first here, which is of no account to one that has ended
    rcases hfirst with hleft | hq
    · exact absurd hleft (by simp)
    · exact race_of_isSome_ended_right hq
  | cons turn rest ih =>
    cases turn with
    | true => exact race_of_isSome_ended_right hfirst
    | false =>
      obtain ⟨hvalue, hworld⟩ := run_turn h q w
      rw [race, ih hfirst, hvalue, hworld]

end KeepsApart

/-! ## Protocols -/

variable {M : Answering I Φ} {N : Answering I Ψ} {x : Φ} {y : Ψ} {p : Program I ε α}
  {q : Program I ε β} {post : α → Φ → Prop} {post' : β → Ψ → Prop}

theorem Follows.mono {mid : α → Φ → Prop} (hp : p.Follows M x mid)
    (h : ∀ a y, mid a y → post a y) : p.Follows M x post := by
  induction p generalizing x with
  | done a => exact h a x hp
  | ask q next ih =>
    intro r
    obtain ⟨y, hy, hnext⟩ := hp r
    exact ⟨y, hy, ih r hnext⟩
  | note e next ih => exact ih hp

/-- A program goes on in any way from a phase that all requests leave as it is. -/
theorem follows_of_forall (hx : ∀ q r, M x q r x) (p : Program I ε α) :
    p.Follows M x fun _ y => y = x := by
  induction p with
  | done a => exact rfl
  | ask q next ih => exact fun r => ⟨x, hx q r, ih r⟩
  | note e next ih => exact ih

/-- A turn either answers nothing any more, or it is one step of the protocol. -/
theorem Follows.turn (hp : p.Follows M x post) (h : Handler I W) (w : W) :
    ((p.turn h w).1.Follows M x post ∧ (p.turn h w).2 = w) ∨
      ∃ c x', M x c (h c w).1 x' ∧ (p.turn h w).1.Follows M x' post ∧
        (p.turn h w).2 = (h c w).2 := by
  induction p with
  | done a => exact .inl ⟨hp, rfl⟩
  | ask c next ih =>
    obtain ⟨x', hstep, hnext⟩ := hp (h c w).1
    exact .inr ⟨c, x', hstep, hnext, rfl⟩
  | note e next ih => exact ih hp

/-- What every step of the protocol preserves holds after a run, for the phase that it ends in. -/
theorem Follows.run_invariant {J : W → Φ → Prop} {h : Handler I W}
    (hstep : ∀ w x c x', J w x → M x c (h c w).1 x' → J (h c w).2 x')
    (hp : p.Follows M x post) {w : W} (hw : J w x) :
    ∃ x', J (p.run h w).world x' ∧ post (p.run h w).value x' := by
  induction p generalizing x w with
  | done a => exact ⟨x, hw, hp⟩
  | ask c next ih =>
    obtain ⟨x', hx, hnext⟩ := hp (h c w).1
    exact ih _ hnext (hstep w x c x' hw hx)
  | note e next ih => exact ih hp hw

/-- What every step of either protocol preserves holds in the end, however the turns are taken. -/
theorem race_invariant {J : W → Φ → Ψ → Prop} {h : Handler I W}
    (hleft : ∀ w x y c x', J w x y → M x c (h c w).1 x' → J (h c w).2 x' y)
    (hright : ∀ w x y c y', J w x y → N y c (h c w).1 y' → J (h c w).2 x y')
    (schedule : List Bool) (hp : p.Follows M x post) (hq : q.Follows N y post') {w : W}
    (hw : J w x y) :
    let r := race h schedule p q w
    ∃ x' y', J r.world x' y' ∧ post r.left x' ∧ post' r.right y' := by
  induction schedule generalizing p q w x y with
  | nil =>
    obtain ⟨x', hx', hvalue⟩ := hp.run_invariant (J := fun w x => J w x y)
      (fun w x c x' hw => hleft w x y c x' hw) hw
    obtain ⟨y', hy', hvalue'⟩ := hq.run_invariant (J := fun w y => J w x' y)
      (fun w y c y' hw => hright w x' y c y' hw) hx'
    exact ⟨x', y', hy', hvalue, hvalue'⟩
  | cons turn rest ih =>
    cases turn with
    | true =>
      rcases hp.turn h w with ⟨hp', hw'⟩ | ⟨c, x', hstep, hp', hw'⟩
      · exact ih hp' hq (hw'.symm ▸ hw)
      · exact ih hp' hq (hw' ▸ hleft w x y c x' hw hstep)
    | false =>
      rcases hq.turn h w with ⟨hq', hw'⟩ | ⟨c, y', hstep, hq', hw'⟩
      · exact ih hp hq' (hw'.symm ▸ hw)
      · exact ih hp hq' (hw' ▸ hright w x y c y' hw hstep)

end Program

end WriteAhead
