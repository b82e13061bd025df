/-
# Calls up to the first that fails

A sequence of calls that the first failure ends.  Each place in it is a `Trial`: the call that is
made there, with the reply it ends in, and the error that a failure is reported as.

* `Exchanges.requestsOf_eq` : a history without interruptions holds exactly the calls of its
  exchanges;
* `Stops.stop`, `Stops.go` : a sequence in two parts ends in the first part, or goes through it.
-/
import WriteAhead.Proofs.Steps

namespace WriteAhead

open Program

/-! ## Exchanges -/

/-- A call with the reply that it ended in. -/
structure Exchange where
  call : SystemCall
  reply : call.Reply

/-- The call is made again when a signal interrupts it. -/
def SystemCall.isRetried : SystemCall → Bool
  | .open_ _ _ | .sync _ | .setLength _ _ => true
  | _ => false

/-- The history consists of these exchanges, in this order.  A call that is retried may have been
made several times for one exchange, if a signal interrupted it each time but the last. -/
inductive Exchanges : List Exchange → List (Happening System Event) → Prop where
  | nil : Exchanges [] []
  | noted (e : Event) {xs : List Exchange} {history : List (Happening System Event)}
      (h : Exchanges xs history) : Exchanges xs (.noted e :: history)
  | interrupted {c : SystemCall} (hc : c.isRetried = true) {r : c.Reply} {xs : List Exchange}
      {history : List (Happening System Event)} (h : Exchanges (⟨c, r⟩ :: xs) history) :
      Exchanges (⟨c, r⟩ :: xs) (.answered c (.error Errno.interrupted) :: history)
  | answered (c : SystemCall) (r : c.Reply) {xs : List Exchange}
      {history : List (Happening System Event)} (h : Exchanges xs history) :
      Exchanges (⟨c, r⟩ :: xs) (.answered c r :: history)

namespace Exchanges

variable {xs ys : List Exchange} {history history' : List (Happening System Event)}

theorem append (h : Exchanges xs history) (h' : Exchanges ys history') :
    Exchanges (xs ++ ys) (history ++ history') := by
  induction h with
  | nil => exact h'
  | noted e _ ih => exact .noted e ih
  | interrupted hc _ ih => exact .interrupted hc ih
  | answered c r _ ih => exact .answered c r ih

/-- What was answered to a call is what an exchange ended in, unless it is an interruption. -/
theorem mem_of_answered (h : Exchanges xs history) {c : SystemCall} {r : c.Reply}
    (hr : r ≠ .error Errno.interrupted) (hmem : .answered c r ∈ history) :
    (⟨c, r⟩ : Exchange) ∈ xs := by
  induction h with
  | nil => exact absurd hmem (by simp)
  | noted e _ ih =>
    rcases List.mem_cons.mp hmem with heq | hmem
    · exact absurd heq (by simp)
    · exact ih hmem
  | interrupted _ _ ih =>
    rcases List.mem_cons.mp hmem with heq | hmem
    · cases heq
      exact absurd rfl hr
    · exact ih hmem
  | answered c' r' _ ih =>
    rcases List.mem_cons.mp hmem with heq | hmem
    · cases heq
      exact List.mem_cons_self
    · exact List.mem_cons_of_mem _ (ih hmem)

/-- The reply that an exchange ended in was answered to its call. -/
theorem answered_of_mem (h : Exchanges xs history) {x : Exchange} (hx : x ∈ xs) :
    .answered x.call x.reply ∈ history := by
  induction h with
  | nil => exact absurd hx (by simp)
  | noted e _ ih => exact List.mem_cons_of_mem _ (ih hx)
  | interrupted _ _ ih => exact List.mem_cons_of_mem _ (ih hx)
  | answered c r _ ih =>
    rcases List.mem_cons.mp hx with rfl | hx
    · exact List.mem_cons_self
    · exact List.mem_cons_of_mem _ (ih hx)

/-- Exchanges that come one after the other are answered one after the other. -/
theorem sublist (h : Exchanges xs history) :
    (xs.map fun x => Happening.answered (ε := Event) x.call x.reply).Sublist history := by
  induction h with
  | nil => exact .slnil
  | noted e _ ih => exact ih.cons _
  | interrupted _ _ ih => exact ih.cons _
  | answered c r _ ih => exact ih.cons_cons _

/-- Where no signal interrupts, each exchange is one call. -/
theorem requestsOf_eq (h : Exchanges xs history)
    (hsteady : ∀ c, .answered c (.error Errno.interrupted) ∉ history) :
    requestsOf history = xs.map (·.call) := by
  induction h with
  | nil => rfl
  | noted e _ ih =>
    rw [requestsOf_noted]
    exact ih fun c hc => hsteady c (List.mem_cons_of_mem _ hc)
  | interrupted _ _ _ => exact absurd List.mem_cons_self (hsteady _)
  | answered c r _ ih =>
    rw [requestsOf_answered, List.map_cons, ih fun c hc => hsteady c (List.mem_cons_of_mem _ hc)]

end Exchanges

namespace Posix

variable {P : SystemCall → Verdict → Prop} {m m' : Machine}
  {history : List (Happening System Event)}

/-- A call made once is one exchange. -/
theorem exchanges_once {c : SystemCall} {a : Except SystemError c.Result}
    (h : CanEnd P (once c) m a m' history) :
    ∃ r, m.Answers P c r m' ∧ a = ofSystem r ∧ Exchanges [⟨c, r⟩] history := by
  obtain ⟨r, hr, ha, rfl⟩ := canEnd_once.mp h
  exact ⟨r, hr, ha, .answered c r .nil⟩

/-- A call made with patience is one exchange. -/
theorem exchanges_persist {c : SystemCall} (hc : c.isRetried = true) {patience : Nat}
    {r : c.Reply} (h : CanEnd P (persist c patience) m r m' history) :
    m.Answers P c r m' ∧ Exchanges [⟨c, r⟩] history := by
  have hclose : ∀ d, c ≠ .close d := by
    rintro d rfl
    exact absurd hc (by simp [SystemCall.isRetried])
  refine ⟨(answers_of_persist hclose h).1, ?_⟩
  induction patience generalizing m history with
  | zero =>
    obtain ⟨_, _, _, -, ⟨rfl, rfl, rfl⟩, rfl⟩ := h
    exact .answered c r .nil
  | succ patience ih =>
    obtain ⟨first, m₁, rest, -, hrest, rfl⟩ := h
    cases first with
    | ok a =>
      obtain ⟨rfl, rfl, rfl⟩ := hrest
      exact .answered c _ .nil
    | error code =>
      by_cases hcode : code = Errno.interrupted
      · subst hcode
        simp only [if_true] at hrest
        exact .interrupted hc (ih hrest)
      · simp only [hcode, if_false] at hrest
        obtain ⟨rfl, rfl, rfl⟩ := hrest
        exact .answered c _ .nil

/-- Opening a path is one exchange, unless a zero byte in it is found before. -/
theorem exchanges_openPath {p : Path} {mode : OpenMode} {patience : Nat}
    {a : Except SystemError Descriptor} (h : CanEnd P (openPath patience p mode) m a m' history) :
    (p.hasZeroByte = true ∧ m' = m ∧ a = .error .zeroByteInPath ∧ history = []) ∨
      p.hasZeroByte = false ∧ ∃ r, m.Answers P (.open_ p mode) r m' ∧ a = ofSystem r ∧
        Exchanges [⟨.open_ p mode, r⟩] history := by
  unfold openPath at h
  split at h
  · next hzero =>
    obtain ⟨rfl, rfl, rfl⟩ := h
    exact .inl ⟨hzero, rfl, rfl, rfl⟩
  · next hzero =>
    obtain ⟨r, m₁, xs, ys, ha, ⟨rfl, rfl, rfl⟩, rfl⟩ := ends_bind.mp h
    obtain ⟨hr, hexchanges⟩ := exchanges_persist rfl ha
    exact .inr ⟨by simpa using hzero, r, hr, rfl, by simpa using hexchanges⟩

end Posix

/-! ## Trials -/

/-- One place in a sequence of calls. -/
structure Trial where
  /-- The call that is made there, unless it is refused before it is made. -/
  exchange? : Option Exchange
  /-- The error that ends the sequence there, if one does. -/
  failure? : Option JournalError

namespace Trial

/-- The trial of a call, whose failure is reported as `report` says, or tolerated. -/
def of (c : SystemCall) (reply : c.Reply) (report : SystemError → Option JournalError) : Trial :=
  ⟨some ⟨c, reply⟩,
    match reply with
    | .ok _ => none
    | .error code => report (.code code)⟩

/-- The trial of a call that is refused before it is made. -/
def refused (e : JournalError) : Trial := ⟨none, some e⟩

/-- The raw code that the call failed with, zero if it did not or was not made. -/
def rawCode (t : Trial) : Int :=
  match t.exchange? with
  | some ⟨_, .error code⟩ => code
  | _ => 0

/-- The trials up to the first that fails, and that one. -/
def attempted : List Trial → List Trial
  | [] => []
  | t :: rest => t :: if t.failure?.isSome then [] else attempted rest

/-- What a sequence of trials ends in: the error of the first that fails. -/
def verdict : List Trial → Except JournalError Unit
  | [] => .ok ()
  | t :: rest =>
    match t.failure? with
    | some e => .error e
    | none => verdict rest

/-- The exchanges up to the first trial that fails, that one's included. -/
def made (trials : List Trial) : List Exchange := (attempted trials).filterMap exchange?

@[simp] theorem attempted_nil : attempted [] = [] := rfl

@[simp] theorem verdict_nil : verdict [] = .ok () := rfl

variable {t : Trial} {rest before after : List Trial} {e : JournalError}

theorem attempted_of_some (h : t.failure? = some e) : attempted (t :: rest) = [t] := by
  rw [attempted, h]
  rfl

theorem attempted_of_none (h : t.failure? = none) :
    attempted (t :: rest) = t :: attempted rest := by
  rw [attempted, h]
  rfl

theorem verdict_of_some (h : t.failure? = some e) : verdict (t :: rest) = .error e := by
  rw [verdict, h]

theorem verdict_of_none (h : t.failure? = none) : verdict (t :: rest) = verdict rest := by
  rw [verdict, h]

/-- Trials that end in an error keep what comes after them from being attempted. -/
theorem append_of_error (h : verdict before = .error e) :
    attempted (before ++ after) = attempted before ∧ verdict (before ++ after) = .error e := by
  induction before with
  | nil => exact absurd h (by simp)
  | cons t rest ih =>
    rw [List.cons_append]
    cases ht : t.failure? with
    | some e' =>
      rw [verdict_of_some ht] at h ⊢
      exact ⟨by rw [attempted_of_some ht, attempted_of_some ht], h⟩
    | none =>
      rw [verdict_of_none ht] at h
      obtain ⟨hattempted, hverdict⟩ := ih h
      exact ⟨by rw [attempted_of_none ht, attempted_of_none ht, hattempted],
        (verdict_of_none ht).trans hverdict⟩

/-- Trials that all pass leave the outcome to what comes after them. -/
theorem append_of_ok (h : verdict before = .ok ()) :
    attempted (before ++ after) = before ++ attempted after ∧
      verdict (before ++ after) = verdict after := by
  induction before with
  | nil => exact ⟨rfl, rfl⟩
  | cons t rest ih =>
    rw [List.cons_append]
    cases ht : t.failure? with
    | some e' =>
      rw [verdict_of_some ht] at h
      exact absurd h (by simp)
    | none =>
      rw [verdict_of_none ht] at h
      obtain ⟨hattempted, hverdict⟩ := ih h
      exact ⟨by rw [attempted_of_none ht, hattempted, List.cons_append],
        (verdict_of_none ht).trans hverdict⟩

/-- The trial that ends a sequence is the last one attempted. -/
theorem getLast?_attempted_of_error {trials : List Trial} (h : verdict trials = .error e) :
    ∃ t ∈ trials, (attempted trials).getLast? = some t ∧ t.failure? = some e := by
  induction trials with
  | nil => exact absurd h (by simp)
  | cons t rest ih =>
    cases ht : t.failure? with
    | some e' =>
      rw [verdict_of_some ht] at h
      obtain rfl := Except.error.inj h
      exact ⟨t, List.mem_cons_self, by rw [attempted_of_some ht]; rfl, ht⟩
    | none =>
      rw [verdict_of_none ht] at h
      obtain ⟨last, hmem, hlast, hfailure⟩ := ih h
      refine ⟨last, List.mem_cons_of_mem _ hmem, ?_, hfailure⟩
      rw [attempted_of_none ht, List.getLast?_cons, hlast]
      rfl

theorem made_append_of_error (h : verdict before = .error e) :
    made (before ++ after) = made before := by
  have hattempted : attempted (before ++ after) = attempted before := (append_of_error h).1
  unfold made
  rw [hattempted]

/-- Where all pass, all are attempted. -/
theorem attempted_of_ok (h : verdict before = .ok ()) : attempted before = before := by
  have hnil : attempted (before ++ []) = before ++ attempted [] := (append_of_ok h).1
  simpa using hnil

theorem made_append_of_ok (h : verdict before = .ok ()) :
    made (before ++ after) = made before ++ made after := by
  have hattempted : attempted (before ++ after) = before ++ attempted after := (append_of_ok h).1
  unfold made
  rw [hattempted, List.filterMap_append, attempted_of_ok h]

theorem failure?_of_ok {trials : List Trial} (h : verdict trials = .ok ()) (ht : t ∈ trials) :
    t.failure? = none := by
  induction trials with
  | nil => exact absurd ht (by simp)
  | cons t' rest ih =>
    cases hfailure : t'.failure? with
    | some e =>
      rw [verdict_of_some hfailure] at h
      exact absurd h (by simp)
    | none =>
      rw [verdict_of_none hfailure] at h
      rcases List.mem_cons.mp ht with rfl | ht
      · exact hfailure
      · exact ih h ht

/-- Where all pass, every call is made. -/
theorem mem_made_of_ok {trials : List Trial} {x : Exchange} (h : verdict trials = .ok ())
    (ht : t ∈ trials) (hx : t.exchange? = some x) : x ∈ made trials := by
  unfold made
  rw [attempted_of_ok h]
  exact List.mem_filterMap.mpr ⟨t, ht, hx⟩

/-- The failure of a trial is reported with the code that its call failed with. -/
def Honest (t : Trial) : Prop := ∀ e, t.failure? = some e → e.detailCode = t.rawCode

theorem honest_of {c : SystemCall} (r : c.Reply) {report : SystemError → Option JournalError}
    (h : ∀ code e, report (.code code) = some e → e.detailCode = code) :
    (Trial.of c r report).Honest := by
  intro e he
  cases r with
  | ok a => exact absurd he (by simp [Trial.of])
  | error code => exact h code e he

theorem honest_of_comp {c : SystemCall} (r : c.Reply) {report : SystemError → JournalError}
    (h : ∀ code, (report (.code code)).detailCode = code) :
    (Trial.of c r (some ∘ report)).Honest := by
  refine honest_of r ?_
  rintro code _ ⟨⟩
  exact h code

theorem honest_refused (h : e.detailCode = 0) : (refused e).Honest := by
  rintro _ ⟨⟩
  exact h

/-- Nothing is attempted but the trials of the sequence. -/
theorem mem_of_mem_attempted {trials : List Trial} (h : t ∈ attempted trials) : t ∈ trials := by
  induction trials with
  | nil => exact h
  | cons t' rest ih =>
    unfold attempted at h
    rcases List.mem_cons.mp h with rfl | h
    · exact List.mem_cons_self
    · split at h
      · exact absurd h (by simp)
      · exact List.mem_cons_of_mem _ (ih h)

/-- The call of the trial, if it is made at all, satisfies `Q`. -/
def Calls (Q : SystemCall → Prop) (t : Trial) : Prop := ∀ x, t.exchange? = some x → Q x.call

theorem calls_of (Q : SystemCall → Prop) {c : SystemCall} (hc : Q c) (r : c.Reply)
    (report : SystemError → Option JournalError) : (Trial.of c r report).Calls Q := by
  rintro x ⟨⟩
  exact hc

theorem calls_refused (Q : SystemCall → Prop) (e : JournalError) : (refused e).Calls Q :=
  fun _ hx => absurd hx (by simp [refused])

/-- What holds of the call of each trial holds of all that are attempted. -/
theorem forall_mem_made {trials : List Trial} {Q : SystemCall → Prop}
    (h : ∀ t ∈ trials, t.Calls Q) : ∀ x ∈ made trials, Q x.call := by
  intro x hx
  obtain ⟨t, ht, hexchange⟩ := List.mem_filterMap.mp hx
  exact h t (mem_of_mem_attempted ht) x hexchange

end Trial

/-- The history is that of the trials up to the first that fails, and `r` is what they end in. -/
structure Stops (trials : List Trial) (r : Except JournalError Unit)
    (history : List (Happening System Event)) : Prop where
  exchanges : Exchanges (Trial.made trials) history
  verdict : r = Trial.verdict trials

namespace Stops

variable {before after : List Trial} {r : Except JournalError Unit} {e : JournalError}
  {xs ys : List (Happening System Event)} {c : SystemCall} {code : Int}
  {report : SystemError → Option JournalError}

/-- A call that succeeds lets the sequence go on. -/
theorem of_ok {a : c.Result} (h : Exchanges [⟨c, .ok a⟩] xs)
    (report : SystemError → Option JournalError) : Stops [.of c (.ok a) report] (.ok ()) xs :=
  ⟨h, rfl⟩

/-- A call whose failure is reported ends the sequence. -/
theorem of_error (h : Exchanges [⟨c, .error code⟩] xs) (hreport : report (.code code) = some e) :
    Stops [.of c (.error code) report] (.error e) xs := by
  have hfailure : (Trial.of c (.error code) report).failure? = some e := hreport
  refine ⟨?_, (Trial.verdict_of_some hfailure).symm⟩
  rw [Trial.made, Trial.attempted_of_some hfailure]
  exact h

/-- A call whose failure is tolerated lets the sequence go on. -/
theorem of_tolerated (h : Exchanges [⟨c, .error code⟩] xs) (hreport : report (.code code) = none) :
    Stops [.of c (.error code) report] (.ok ()) xs := by
  have hfailure : (Trial.of c (.error code) report).failure? = none := hreport
  refine ⟨?_, by rw [Trial.verdict_of_none hfailure, Trial.verdict_nil]⟩
  rw [Trial.made, Trial.attempted_of_none hfailure]
  exact h

/-- A call that is refused ends the sequence without being made. -/
theorem refused (e : JournalError) : Stops [.refused e] (.error e) [] := ⟨.nil, rfl⟩

/-- An event is no part of a sequence of calls. -/
theorem noted (event : Event) (h : Stops before r xs) : Stops before r (.noted event :: xs) :=
  ⟨.noted event h.exchanges, h.verdict⟩

/-- A sequence that ends in its first part never comes to the second. -/
theorem stop (h : Stops before (.error e) xs) (after : List Trial) :
    Stops (before ++ after) (.error e) xs := by
  have hverdict : Trial.verdict before = .error e := h.verdict.symm
  refine ⟨?_, (Trial.append_of_error hverdict).2.symm⟩
  rw [Trial.made_append_of_error hverdict]
  exact h.exchanges

/-- A sequence whose first part passes goes on with the second. -/
theorem go (h : Stops before (.ok ()) xs) (h' : Stops after r ys) :
    Stops (before ++ after) r (xs ++ ys) := by
  have hverdict : Trial.verdict before = .ok () := h.verdict.symm
  refine ⟨?_, h'.verdict.trans (Trial.append_of_ok hverdict).2.symm⟩
  rw [Trial.made_append_of_ok hverdict]
  exact h.exchanges.append h'.exchanges

end Stops

end WriteAhead
