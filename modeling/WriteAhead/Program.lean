/-
# Programs that ask and note

Everything this library does to the outside world is written as a `Program`: a finite tree of
requests over an `Interface`, with events noted in passing.  A program fixes what is asked and in
which order; a `Handler` supplies the replies.  The same program can therefore be run against a
file system, against a scripted failure, or against any reply at all.

Main statements:

* `run_bind` : a run of `p >>= f` is a run of `p` followed by a run of `f`;
* `run_through` : serving each request by a program over another interface, and running that,
  is the same as running the program itself against the served replies.
-/

namespace WriteAhead

/-! ## Interfaces and programs -/

/-- The requests a program may make, and the type of the reply to each. -/
structure Interface where
  /-- What can be asked. -/
  Request : Type
  /-- What each request is answered with. -/
  Reply : Request → Type

/-- A computation that asks requests of `I`, notes events of type `ε`, and ends in a value. -/
inductive Program (I : Interface) (ε : Type) (α : Type) where
  | done (value : α)
  | ask (request : I.Request) (next : I.Reply request → Program I ε α)
  | note (event : ε) (next : Program I ε α)

namespace Program

variable {I J : Interface} {ε α β γ W σ : Type}

/-- Runs `p`, then the program that its value selects. -/
def bind : Program I ε α → (α → Program I ε β) → Program I ε β
  | done a, f => f a
  | ask q next, f => ask q fun r => bind (next r) f
  | note e next, f => note e (bind next f)

instance : Monad (Program I ε) where
  pure := done
  bind := bind

/-- The program that asks one request and returns its reply. -/
def request (q : I.Request) : Program I ε (I.Reply q) :=
  ask q done

/-- The program that notes one event. -/
def emit (e : ε) : Program I ε Unit :=
  note e (done ())

@[simp] theorem pure_eq_done (a : α) : (pure a : Program I ε α) = done a := rfl

@[simp] theorem done_bind (a : α) (f : α → Program I ε β) : (done a >>= f) = f a := rfl

@[simp] theorem ask_bind (q : I.Request) (next : I.Reply q → Program I ε α)
    (f : α → Program I ε β) : (ask q next >>= f) = ask q fun r => next r >>= f := rfl

@[simp] theorem note_bind (e : ε) (next : Program I ε α) (f : α → Program I ε β) :
    (note e next >>= f) = note e (next >>= f) := rfl

theorem bind_done (p : Program I ε α) : (p >>= done) = p := by
  induction p with
  | done a => rfl
  | ask q next ih => simp [ih]
  | note e next ih => simp [ih]

theorem bind_assoc (p : Program I ε α) (f : α → Program I ε β) (g : β → Program I ε γ) :
    (p >>= f >>= g) = p >>= fun a => f a >>= g := by
  induction p with
  | done a => rfl
  | ask q next ih => simp [ih]
  | note e next ih => simp [ih]

/-! ## Running a program -/

/-- One thing that happened in a run: a request with its reply, or an event. -/
inductive Happening (I : Interface) (ε : Type) where
  | answered (request : I.Request) (reply : I.Reply request)
  | noted (event : ε)

/-- The event of a happening, if it is one. -/
def Happening.event? : Happening I ε → Option ε
  | .answered _ _ => none
  | .noted e => some e

/-- What a run leaves: its value, the world after it, and all that happened, in order. -/
structure Run (I : Interface) (ε W α : Type) where
  value : α
  world : W
  history : List (Happening I ε)

/-- The events of a run, in order. -/
def Run.events (r : Run I ε W α) : List ε :=
  r.history.filterMap Happening.event?

/-- The run in which `h` happened before everything else. -/
def Run.after (h : List (Happening I ε)) (r : Run I ε W α) : Run I ε W α :=
  { r with history := h ++ r.history }

@[simp] theorem Run.value_after (h : List (Happening I ε)) (r : Run I ε W α) :
    (r.after h).value = r.value := rfl

@[simp] theorem Run.world_after (h : List (Happening I ε)) (r : Run I ε W α) :
    (r.after h).world = r.world := rfl

@[simp] theorem Run.history_after (h : List (Happening I ε)) (r : Run I ε W α) :
    (r.after h).history = h ++ r.history := rfl

/-- Answers each request by one step on a world `W`. -/
abbrev Handler (I : Interface) (W : Type) : Type :=
  (q : I.Request) → W → I.Reply q × W

/-- Runs a program against a handler, from the world `w`. -/
def run (h : Handler I W) : Program I ε α → W → Run I ε W α
  | done a, w => ⟨a, w, []⟩
  | ask q next, w => (run h (next (h q w).1) (h q w).2).after [.answered q (h q w).1]
  | note e next, w => (run h next w).after [.noted e]

@[simp] theorem run_done (h : Handler I W) (a : α) (w : W) :
    (done a : Program I ε α).run h w = ⟨a, w, []⟩ := rfl

@[simp] theorem run_ask (h : Handler I W) (q : I.Request) (next : I.Reply q → Program I ε α)
    (w : W) : (ask q next).run h w =
      ((next (h q w).1).run h (h q w).2).after [.answered q (h q w).1] := rfl

@[simp] theorem run_note (h : Handler I W) (e : ε) (next : Program I ε α) (w : W) :
    (note e next).run h w = (next.run h w).after [.noted e] := rfl

/-- A run of a sequence is the run of its first part followed by the run of its second. -/
theorem run_bind (h : Handler I W) (p : Program I ε α) (f : α → Program I ε β) (w : W) :
    (p >>= f).run h w =
      ((f (p.run h w).value).run h (p.run h w).world).after (p.run h w).history := by
  induction p generalizing w with
  | done a => simp [Run.after]
  | ask q next ih => simp [ih, Run.after]
  | note e next ih => simp [ih, Run.after]

/-! ## Serving one interface by another -/

/-- Replaces each request of `I` by a program over `J` that computes its reply. -/
def through (serve : (q : I.Request) → Program J ε (I.Reply q)) :
    Program I ε α → Program J ε α
  | done a => done a
  | ask q next => serve q >>= fun r => through serve (next r)
  | note e next => note e (through serve next)

/-- Like `through`, with a state that the serving programs read and replace. -/
def throughState (serve : (q : I.Request) → σ → Program J ε (I.Reply q × σ)) :
    Program I ε α → σ → Program J ε (α × σ)
  | done a, s => done (a, s)
  | ask q next, s => serve q s >>= fun r => throughState serve (next r.1) r.2
  | note e next, s => note e (throughState serve next s)

theorem through_bind (serve : (q : I.Request) → Program J ε (I.Reply q))
    (p : Program I ε α) (f : α → Program I ε β) :
    (p >>= f).through serve = p.through serve >>= fun a => (f a).through serve := by
  induction p with
  | done a => rfl
  | ask q next ih => simp [through, ih, bind_assoc]
  | note e next ih => simp [through, ih]

/-- The handler that answers a request by running its serving program. -/
def served (serve : (q : I.Request) → Program J ε (I.Reply q)) (h : Handler J W) :
    Handler I W :=
  fun q w => (((serve q).run h w).value, ((serve q).run h w).world)

/-- Serving and then running gives the value and the world of a run against the served replies. -/
theorem run_through (serve : (q : I.Request) → Program J ε (I.Reply q)) (h : Handler J W)
    (p : Program I ε α) (w : W) :
    ((p.through serve).run h w).value = (p.run (served serve h) w).value ∧
      ((p.through serve).run h w).world = (p.run (served serve h) w).world := by
  induction p generalizing w with
  | done a => exact ⟨rfl, rfl⟩
  | ask q next ih =>
    simp only [through, run_bind, run_ask, Run.value_after, Run.world_after]
    exact ih _ _
  | note e next ih => exact ih w

end Program

end WriteAhead
