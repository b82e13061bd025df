/-
# The moments of a run

Between any two things that happen in a run the world is in some state.  What each single answer
preserves therefore holds at every moment: after every first part of what happened, also in the
midst of an operation.

Main statements:

* `leads_append` : happenings lead to where their first part led and the rest leads on;
* `Leads.invariant` : what each answer preserves is preserved by all that happens;
* `Follows.run` : a program that follows a protocol keeps to it in every run;
* `Session.leads_run` : the trace of a session leads to the world that the session ends in.
-/
import WriteAhead.Proofs.Endings
import WriteAhead.Proofs.Session

namespace WriteAhead

namespace Program

variable {I : Interface} {ε α β V W Φ : Type}

/-! ## Where happenings lead -/

/-- From the world `w` the happenings lead to `w'`, when requests are answered as `R` says. -/
def Leads (R : Answering I W) : W → List (Happening I ε) → W → Prop
  | w, [], w' => w' = w
  | w, .answered q r :: rest, w' => ∃ w₁, R w q r w₁ ∧ Leads R w₁ rest w'
  | w, .noted _ :: rest, w' => Leads R w rest w'

variable {R : Answering I W} {w w' : W} {xs ys : List (Happening I ε)}

theorem leads_append :
    Leads R w (xs ++ ys) w' ↔ ∃ w₁, Leads R w xs w₁ ∧ Leads R w₁ ys w' := by
  induction xs generalizing w with
  | nil => simp [Leads]
  | cons x rest ih =>
    cases x with
    | answered q r =>
      constructor
      · rintro ⟨w₁, hr, h⟩
        obtain ⟨w₂, hrest, hys⟩ := ih.mp h
        exact ⟨w₂, ⟨w₁, hr, hrest⟩, hys⟩
      · rintro ⟨w₂, ⟨w₁, hr, hrest⟩, hys⟩
        exact ⟨w₁, hr, ih.mpr ⟨w₂, hrest, hys⟩⟩
    | noted e => exact ih

/-- What happened first has led somewhere. -/
theorem Leads.exists_of_prefix (h : Leads R w xs w') (hys : ys <+: xs) :
    ∃ w₁, Leads R w ys w₁ := by
  obtain ⟨rest, rfl⟩ := hys
  obtain ⟨w₁, hfirst, -⟩ := leads_append.mp h
  exact ⟨w₁, hfirst⟩

/-- Happenings seen through a part `f` of the world. -/
theorem Leads.map {S : Answering I V} (f : W → V) (hf : ∀ w q r w', R w q r w' → S (f w) q r (f w'))
    (h : Leads R w xs w') : Leads S (f w) xs (f w') := by
  induction xs generalizing w with
  | nil =>
    obtain rfl : w' = w := h
    exact (rfl : f w' = f w')
  | cons x rest ih =>
    cases x with
    | answered q r =>
      obtain ⟨w₁, hr, hrest⟩ := h
      exact ⟨f w₁, hf _ _ _ _ hr, ih hrest⟩
    | noted e => exact ih h

/-- What each answer preserves is preserved by all that happens. -/
theorem Leads.invariant {P : W → Prop} (hstep : ∀ w q r w', P w → R w q r w' → P w')
    (h : Leads R w xs w') (hw : P w) : P w' := by
  induction xs generalizing w with
  | nil =>
    obtain rfl : w' = w := h
    exact hw
  | cons x rest ih =>
    cases x with
    | answered q r =>
      obtain ⟨w₁, hr, hrest⟩ := h
      exact ih hrest (hstep _ _ _ _ hw hr)
    | noted e => exact ih h hw

/-- The same happenings lead on in two worlds side by side. -/
theorem Leads.prod {S : Answering I V} {v v' : V} (hw : Leads R w xs w') (hv : Leads S v xs v') :
    Leads (fun x q r y => R x.1 q r y.1 ∧ S x.2 q r y.2) (w, v) xs (w', v') := by
  induction xs generalizing w v with
  | nil =>
    obtain rfl : w' = w := hw
    obtain rfl : v' = v := hv
    rfl
  | cons x rest ih =>
    cases x with
    | answered q r =>
      obtain ⟨w₁, hr, hwrest⟩ := hw
      obtain ⟨v₁, hs, hvrest⟩ := hv
      exact ⟨(w₁, v₁), ⟨hr, hs⟩, ih hwrest hvrest⟩
    | noted e => exact ih hw hv

/-- However a program ends, what happened leads to its end. -/
theorem Ends.leads {p : Program I ε α} {a : α} (h : p.Ends R w a w' xs) : Leads R w xs w' := by
  induction p generalizing w xs with
  | done b =>
    obtain ⟨-, hw, rfl⟩ := h
    exact hw
  | ask q next ih =>
    obtain ⟨r, w₁, rest, hr, hrest, rfl⟩ := h
    exact ⟨w₁, hr, ih r hrest⟩
  | note e next ih =>
    obtain ⟨rest, hrest, rfl⟩ := h
    have hled : Leads R w rest w' := ih hrest
    exact hled

/-! ## The world at a moment -/

/-- The answers of a handler. -/
def Handler.answering (h : Handler I W) : Answering I W := fun w q r w' => h q w = (r, w')

/-- The world after some happenings, when a handler answers what was asked in them. -/
def worldAfter (h : Handler I W) (w : W) (history : List (Happening I ε)) : W :=
  (requestsOf history).foldl (fun w q => (h q w).2) w

theorem Leads.worldAfter_eq {h : Handler I W} (hw : Leads h.answering w xs w') :
    worldAfter h w xs = w' := by
  induction xs generalizing w with
  | nil => exact Eq.symm hw
  | cons x rest ih =>
    cases x with
    | answered q r =>
      obtain ⟨w₁, hr, hrest⟩ := hw
      have hnext : worldAfter h w (.answered q r :: rest) = worldAfter h (h q w).2 rest := rfl
      rw [hnext, show h q w = (r, w₁) from hr]
      exact ih hrest
    | noted e => exact ih hw

/-- What happens in a run leads to its world. -/
theorem leads_run (h : Handler I W) (p : Program I ε α) (w : W) :
    Leads h.answering w (p.run h w).history (p.run h w).world :=
  (ends_run id h (fun _ _ => rfl) p w).leads

/-! ## Protocols -/

/-- Whatever is answered, the program goes from one phase to the next as `M` says, and ends in a
value and a phase as `post` says. -/
def Follows (M : Answering I Φ) : Program I ε α → Φ → (α → Φ → Prop) → Prop
  | done a, x, post => post a x
  | ask q next, x, post => ∀ r, ∃ y, M x q r y ∧ Follows M (next r) y post
  | note _ next, x, post => Follows M next x post

variable {M : Answering I Φ} {x : Φ} {p : Program I ε α} {f : α → Program I ε β}
  {mid : α → Φ → Prop} {post : β → Φ → Prop}

theorem Follows.bind (hp : p.Follows M x mid) (hf : ∀ a y, mid a y → (f a).Follows M y post) :
    (p >>= f).Follows M x post := by
  induction p generalizing x with
  | done a => exact hf a x hp
  | ask q next ih =>
    intro r
    obtain ⟨y, hy, hnext⟩ := hp r
    exact ⟨y, hy, ih r hnext⟩
  | note e next ih => exact ih hp

/-- A program whose requests do not change the phase does not change it either. -/
theorem Follows.of_asks {Q : I.Request → Prop} (hp : p.Asks Q) (hQ : ∀ q r, Q q → M x q r x) :
    p.Follows M x fun _ y => y = x := by
  induction p with
  | done a => exact rfl
  | ask q next ih => exact fun r => ⟨x, hQ q r hp.1, ih r (hp.2 r)⟩
  | note e next ih => exact ih hp

/-- Every run of a program that follows a protocol keeps to it. -/
theorem Follows.run (hp : p.Follows M x mid) (h : Handler I W) (w : W) :
    ∃ y, Leads M x (p.run h w).history y ∧ mid (p.run h w).value y := by
  induction p generalizing x w with
  | done a => exact ⟨x, rfl, hp⟩
  | ask q next ih =>
    obtain ⟨y, hy, hnext⟩ := hp (h q w).1
    obtain ⟨z, hleads, hz⟩ := ih _ hnext (h q w).2
    exact ⟨z, ⟨y, hy, hleads⟩, hz⟩
  | note e next ih => exact ih hp w

end Program

/-! ## Sessions -/

namespace Session

open Program

variable {I : Interface} {W Φ : Type} {platforms : Nat → Platform I W} {s : Session W}
  {ops : List Operation}

/-- All that happened over some records, in order. -/
def trace (records : List (Record I W)) : List (Happening I Event) :=
  records.flatMap (·.history)

theorem trace_append (records more : List (Record I W)) :
    trace (records ++ more) = trace records ++ trace more := by
  unfold trace
  rw [List.flatMap_append]

theorem run_append (platforms : Nat → Platform I W) (s : Session W) (ops more : List Operation) :
    run platforms s (ops ++ more) =
      run platforms s ops ++ run platforms (final platforms s ops) more := by
  induction ops generalizing s with
  | nil => rfl
  | cons op rest ih => exact congrArg (List.cons _) (ih _)

theorem final_append (platforms : Nat → Platform I W) (s : Session W) (ops more : List Operation) :
    final platforms s (ops ++ more) = final platforms (final platforms s ops) more := by
  induction ops generalizing s with
  | nil => rfl
  | cons op rest ih => exact ih _

/-- What each operation of a run owes to what the session was like before it. -/
theorem forall_mem_run {Q : Operation → Prop} {J : Session W → Prop} {P : Record I W → Prop}
    (hstep : ∀ s op, Q op → J s → P (s.step platforms op) ∧ J (s.step platforms op).after)
    (hops : ∀ op ∈ ops, Q op) (h : J s) : ∀ r ∈ run platforms s ops, P r := by
  induction ops generalizing s with
  | nil => simp [run]
  | cons op rest ih =>
    obtain ⟨hP, hafter⟩ := hstep s op (hops op List.mem_cons_self) h
    intro r hr
    rcases List.mem_cons.mp hr with rfl | hr
    · exact hP
    · exact ih (fun op hop => hops op (List.mem_cons_of_mem _ hop)) hafter r hr

/-- What happens in an operation leads to the world after it. -/
theorem leads_step (x : Platform I W) (s : Session W) (op : Operation) :
    Leads x.handler.answering s.world (s.step (fun _ => x) op).history
      (s.step (fun _ => x) op).after.world := by
  cases op with
  | openForWrite | openForRead =>
    simp only [step, opened]
    split <;> exact Program.leads_run _ _ _
  | write | read | truncate | size =>
    simp only [step, used]
    split
    · rfl
    · exact Program.leads_run _ _ _
  | close | drop =>
    simp only [step, ended]
    split
    · rfl
    · exact Program.leads_run _ _ _

/-- What happens in a session on one platform leads to the world that it ends in. -/
theorem leads_run (x : Platform I W) (s : Session W) (ops : List Operation) :
    Leads x.handler.answering s.world (trace (run (fun _ => x) s ops))
      (final (fun _ => x) s ops).world := by
  induction ops generalizing s with
  | nil => rfl
  | cons op rest ih => exact leads_append.mpr ⟨_, leads_step x s op, ih _⟩

end Session

end WriteAhead
