/-
# The requests of a run

Which requests a program can make, and what a run owes to the replies it gets.

Main statements:

* `Asks.requests` : what every path of a program asks for, each of its runs asks for;
* `run_eq_run_fixed` : the value and the history of a run depend on its replies alone;
* `exists_fixed_replies` : a program that asks in a rising order never asks the same thing twice,
  so that one reply to each request describes its whole run.
-/
import WriteAhead.Program
import Mathlib.Logic.Function.Basic

namespace WriteAhead

namespace Program

variable {I : Interface} {ε α β W : Type}

/-! ## The requests in a history -/

/-- The request of a happening, if it is one. -/
def Happening.request? : Happening I ε → Option I.Request
  | .answered q _ => some q
  | .noted _ => none

/-- The requests in a history, in order. -/
def requestsOf (history : List (Happening I ε)) : List I.Request :=
  history.filterMap Happening.request?

@[simp] theorem requestsOf_nil : requestsOf ([] : List (Happening I ε)) = [] := rfl

@[simp] theorem requestsOf_answered (q : I.Request) (r : I.Reply q)
    (history : List (Happening I ε)) :
    requestsOf (.answered q r :: history) = q :: requestsOf history := rfl

@[simp] theorem requestsOf_noted (e : ε) (history : List (Happening I ε)) :
    requestsOf (.noted e :: history) = requestsOf history := rfl

@[simp] theorem requestsOf_append (xs ys : List (Happening I ε)) :
    requestsOf (xs ++ ys) = requestsOf xs ++ requestsOf ys := by
  unfold requestsOf
  rw [List.filterMap_append]

/-- A request is in a history exactly if it was answered there. -/
theorem mem_requestsOf {q : I.Request} {history : List (Happening I ε)} :
    q ∈ requestsOf history ↔ ∃ r, Happening.answered q r ∈ history := by
  unfold requestsOf
  rw [List.mem_filterMap]
  constructor
  · rintro ⟨x, hx, hq⟩
    cases x with
    | answered q' r =>
        obtain rfl : q' = q := Option.some.inj hq
        exact ⟨r, hx⟩
    | noted e => exact absurd hq (by simp [Happening.request?])
  · rintro ⟨r, hr⟩
    exact ⟨_, hr, rfl⟩

/-- The requests of a run, in order. -/
def Run.requests (r : Run I ε W α) : List I.Request :=
  requestsOf r.history

@[simp] theorem Run.requests_mk (a : α) (w : W) (history : List (Happening I ε)) :
    Run.requests ⟨a, w, history⟩ = requestsOf history := rfl

@[simp] theorem Run.requests_after (history : List (Happening I ε)) (r : Run I ε W α) :
    (r.after history).requests = requestsOf history ++ r.requests := by
  unfold Run.requests
  rw [Run.history_after, requestsOf_append]

theorem requests_run_bind (h : Handler I W) (p : Program I ε α) (f : α → Program I ε β) (w : W) :
    ((p >>= f).run h w).requests =
      (p.run h w).requests ++ ((f (p.run h w).value).run h (p.run h w).world).requests := by
  rw [run_bind, Run.requests_after]
  rfl

/-- A program whose requests are served by asking them is the program itself. -/
theorem through_request (p : Program I ε α) : p.through request = p := by
  induction p with
  | done a => rfl
  | ask q next ih =>
    unfold through request
    rw [ask_bind]
    congr 1
    funext r
    exact ih r
  | note e next ih =>
    unfold through
    rw [ih]

/-! ## What a program can ask for -/

/-- Every request that `p` can come to make satisfies `P`. -/
def Asks (P : I.Request → Prop) : Program I ε α → Prop
  | done _ => True
  | ask q next => P q ∧ ∀ r, Asks P (next r)
  | note _ next => Asks P next

theorem Asks.request {P : I.Request → Prop} {q : I.Request} (hq : P q) :
    Asks P (ask q Program.done : Program I ε (I.Reply q)) :=
  ⟨hq, fun _ => trivial⟩

theorem Asks.bind {P : I.Request → Prop} {p : Program I ε α} {f : α → Program I ε β}
    (hp : p.Asks P) (hf : ∀ a, (f a).Asks P) : (p >>= f).Asks P := by
  induction p with
  | done a => exact hf a
  | ask q next ih => exact ⟨hp.1, fun r => ih r (hp.2 r)⟩
  | note e next ih => exact ih hp

/-- What the programs that serve the requests of a program ask for, it asks for when it is served
by them. -/
theorem Asks.through {J : Interface} {P : I.Request → Prop} {Q : J.Request → Prop}
    {serve : (q : I.Request) → Program J ε (I.Reply q)} {p : Program I ε α} (hp : p.Asks P)
    (hserve : ∀ q, P q → (serve q).Asks Q) : (p.through serve).Asks Q := by
  induction p with
  | done a => trivial
  | ask q next ih => exact (hserve q hp.1).bind fun r => ih r (hp.2 r)
  | note e next ih => exact ih hp

/-- What every path of a program asks for, each of its runs asks for. -/
theorem Asks.requests {P : I.Request → Prop} {p : Program I ε α} (hp : p.Asks P)
    (h : Handler I W) (w : W) : ∀ q ∈ (p.run h w).requests, P q := by
  induction p generalizing w with
  | done a => simp
  | ask q next ih =>
    intro q' hq'
    rw [run_ask, Run.requests_after] at hq'
    rcases List.mem_append.mp hq' with hq' | hq'
    · obtain rfl : q' = q := by simpa using hq'
      exact hp.1
    · exact ih _ (hp.2 _) _ q' hq'
  | note e next ih =>
    intro q' hq'
    rw [run_note, Run.requests_after] at hq'
    exact ih hp w q' (by simpa using hq')

/-! ## Runs against fixed replies -/

/-- The handler that answers each request in one way, whatever came before. -/
def fixed (reply : (q : I.Request) → I.Reply q) : Handler I Unit :=
  fun q w => (reply q, w)

@[simp] theorem fixed_apply (reply : (q : I.Request) → I.Reply q) (q : I.Request) (w : Unit) :
    fixed reply q w = (reply q, w) := rfl

/-- All replies in a history are those of `reply`. -/
def Agrees (reply : (q : I.Request) → I.Reply q) (history : List (Happening I ε)) : Prop :=
  ∀ q r, Happening.answered q r ∈ history → r = reply q

/-- The value and the history of a run depend on the replies alone that it got. -/
theorem run_eq_run_fixed (h : Handler I W) (reply : (q : I.Request) → I.Reply q)
    (p : Program I ε α) (w : W) (agrees : Agrees reply (p.run h w).history) :
    (p.run h w).value = (p.run (fixed reply) ()).value ∧
      (p.run h w).history = (p.run (fixed reply) ()).history := by
  induction p generalizing w with
  | done a => exact ⟨rfl, rfl⟩
  | ask q next ih =>
    have hq : (h q w).1 = reply q := agrees q _ (by simp)
    have hnext := ih (h q w).1 (h q w).2 fun q' r hr => agrees q' r (by simp [hr])
    simp only [run_ask, Run.value_after, Run.history_after, fixed_apply]
    rw [← hq]
    exact ⟨hnext.1, by rw [hnext.2]⟩
  | note e next ih =>
    have hnext := ih w fun q r hr => agrees q r (by simp [hr])
    simp only [run_note, Run.value_after, Run.history_after]
    exact ⟨hnext.1, by rw [hnext.2]⟩

/-- The requests of `p` rise in `rank`, from `low` on and below `high`. -/
def Climbs (rank : I.Request → Nat) : (low high : Nat) → Program I ε α → Prop
  | low, high, done _ => low ≤ high
  | low, high, ask q next =>
    low ≤ rank q ∧ rank q < high ∧ ∀ r, Climbs rank (rank q + 1) high (next r)
  | low, high, note _ next => Climbs rank low high next

@[simp] theorem climbs_done (rank : I.Request → Nat) (low high : Nat) (a : α) :
    (done a : Program I ε α).Climbs rank low high ↔ low ≤ high := Iff.rfl

@[simp] theorem climbs_ask (rank : I.Request → Nat) (low high : Nat) (q : I.Request)
    (next : I.Reply q → Program I ε α) :
    (ask q next).Climbs rank low high ↔
      low ≤ rank q ∧ rank q < high ∧ ∀ r, (next r).Climbs rank (rank q + 1) high := Iff.rfl

@[simp] theorem climbs_note (rank : I.Request → Nat) (low high : Nat) (e : ε)
    (next : Program I ε α) :
    (note e next).Climbs rank low high ↔ next.Climbs rank low high := Iff.rfl

theorem Climbs.mono_low {rank : I.Request → Nat} {low low' high : Nat} {p : Program I ε α}
    (hp : p.Climbs rank low high) (hl : low' ≤ low) : p.Climbs rank low' high := by
  induction p generalizing low low' with
  | done a => exact Nat.le_trans hl hp
  | ask q next ih => exact ⟨Nat.le_trans hl hp.1, hp.2⟩
  | note e next ih => exact ih hp hl

/-- A program that climbs to where the next one starts, followed by that one, climbs. -/
theorem Climbs.bind {rank : I.Request → Nat} {low mid high : Nat} {p : Program I ε α}
    {f : α → Program I ε β} (hp : p.Climbs rank low mid) (hmid : mid ≤ high)
    (hf : ∀ a, (f a).Climbs rank mid high) : (p >>= f).Climbs rank low high := by
  induction p generalizing low with
  | done a => exact (hf a).mono_low hp
  | ask q next ih =>
    exact ⟨hp.1, Nat.lt_of_lt_of_le hp.2.1 hmid, fun r => ih r (hp.2.2 r)⟩
  | note e next ih => exact ih hp

theorem Climbs.le_rank {rank : I.Request → Nat} {low high : Nat} {p : Program I ε α}
    (hp : p.Climbs rank low high) (h : Handler I W) (w : W) :
    ∀ q ∈ (p.run h w).requests, low ≤ rank q := by
  induction p generalizing low w with
  | done a => simp
  | ask q next ih =>
    intro q' hq'
    rw [run_ask, Run.requests_after] at hq'
    rcases List.mem_append.mp hq' with hq' | hq'
    · obtain rfl : q' = q := by simpa using hq'
      exact hp.1
    · have hrank := ih _ (hp.2.2 _) _ q' hq'
      have hlow := hp.1
      omega
  | note e next ih =>
    intro q' hq'
    rw [run_note, Run.requests_after] at hq'
    exact ih hp w q' (by simpa using hq')

/-- A run that asks for nothing twice got one reply to each request. -/
theorem exists_fixed_replies {rank : I.Request → Nat} {low high : Nat} {p : Program I ε α}
    (hp : p.Climbs rank low high) (h : Handler I W) (w : W) :
    ∃ reply, Agrees reply (p.run h w).history := by
  classical
  induction p generalizing low w with
  | done a => exact ⟨fun q => (h q w).1, fun q r hr => absurd hr (by simp)⟩
  | ask q next ih =>
    -- the rest of the run is described by replies of its own, into which this one is put
    obtain ⟨reply, hreply⟩ := ih (h q w).1 (hp.2.2 _) (h q w).2
    refine ⟨Function.update reply q (h q w).1, fun q' r hr => ?_⟩
    rw [run_ask, Run.history_after] at hr
    rcases List.mem_append.mp hr with hr | hr
    · cases List.mem_singleton.mp hr
      rw [Function.update_self]
    · -- a later request has a higher rank, so the reply given to it is left as it was
      have hrank := (hp.2.2 _).le_rank h _ q' (mem_requestsOf.mpr ⟨r, hr⟩)
      have hne : q' ≠ q := by
        rintro rfl
        omega
      rw [Function.update_of_ne hne]
      exact hreply q' r hr
  | note e next ih =>
    obtain ⟨reply, hreply⟩ := ih hp w
    exact ⟨reply, fun q r hr => hreply q r (by simpa using hr)⟩

end Program

end WriteAhead
