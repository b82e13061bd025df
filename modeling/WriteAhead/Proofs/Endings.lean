/-
# How a program can end

All the ways in which a program can end when each request can be answered in several ways: what
the program yields, the world it leaves, and what happened meanwhile.

* `ends_bind` : how a sequence can end;
* `ends_run` : a run against a handler is one of the ways, if the handler's answers are possible.
-/
import WriteAhead.Proofs.Requests

namespace WriteAhead

namespace Program

variable {I : Interface} {ε α β V W : Type}

/-- A relation that says how requests can be answered, and what they can do to a world. -/
abbrev Answering (I : Interface) (W : Type) : Type :=
  W → (q : I.Request) → I.Reply q → W → Prop

/-- From the world `w`, the program can yield `a` and leave `w'`, with such a history. -/
def Ends (R : Answering I W) : Program I ε α → W → α → W → List (Happening I ε) → Prop
  | done b, w, a, w', history => a = b ∧ w' = w ∧ history = []
  | ask q next, w, a, w', history =>
    ∃ r w₁ rest, R w q r w₁ ∧ Ends R (next r) w₁ a w' rest ∧ history = .answered q r :: rest
  | note e next, w, a, w', history =>
    ∃ rest, Ends R next w a w' rest ∧ history = .noted e :: rest

variable {R : Answering I W} {w w' : W} {history : List (Happening I ε)}

/-- A sequence ends as its second part ends, from where its first part ended. -/
theorem ends_bind {p : Program I ε α} {f : α → Program I ε β} {b : β} :
    (p >>= f).Ends R w b w' history ↔
      ∃ a w₁ xs ys, p.Ends R w a w₁ xs ∧ (f a).Ends R w₁ b w' ys ∧ history = xs ++ ys := by
  induction p generalizing w history with
  | done a =>
    constructor
    · intro h
      exact ⟨a, w, [], history, ⟨rfl, rfl, rfl⟩, h, rfl⟩
    · rintro ⟨_, _, _, ys, ⟨rfl, rfl, rfl⟩, h, rfl⟩
      exact h
  | ask q next ih =>
    constructor
    · rintro ⟨r, w₁, rest, hr, hrest, rfl⟩
      obtain ⟨a, w₂, xs, ys, ha, hb, rfl⟩ := ih r |>.mp hrest
      exact ⟨a, w₂, .answered q r :: xs, ys, ⟨r, w₁, xs, hr, ha, rfl⟩, hb, rfl⟩
    · rintro ⟨a, w₂, _, ys, ⟨r, w₁, xs, hr, ha, rfl⟩, hb, rfl⟩
      exact ⟨r, w₁, xs ++ ys, hr, ih r |>.mpr ⟨a, w₂, xs, ys, ha, hb, rfl⟩, rfl⟩
  | note e next ih =>
    constructor
    · rintro ⟨rest, hrest, rfl⟩
      obtain ⟨a, w₂, xs, ys, ha, hb, rfl⟩ := ih.mp hrest
      exact ⟨a, w₂, .noted e :: xs, ys, ⟨xs, ha, rfl⟩, hb, rfl⟩
    · rintro ⟨a, w₂, _, ys, ⟨xs, ha, rfl⟩, hb, rfl⟩
      exact ⟨xs ++ ys, ih.mpr ⟨a, w₂, xs, ys, ha, hb, rfl⟩, rfl⟩

/-- Whatever a history says was answered could be answered. -/
theorem exists_answer_of_ends {p : Program I ε α} {a : α} (h : p.Ends R w a w' history)
    {q : I.Request} {r : I.Reply q} (hmem : .answered q r ∈ history) :
    ∃ v v', R v q r v' := by
  induction p generalizing w history with
  | done b =>
    obtain ⟨-, -, rfl⟩ := h
    exact absurd hmem (by simp)
  | ask q' next ih =>
    obtain ⟨r', w₁, rest, hr', hrest, rfl⟩ := h
    rcases List.mem_cons.mp hmem with heq | hmem
    · cases heq
      exact ⟨w, w₁, hr'⟩
    · exact ih r' hrest hmem
  | note e next ih =>
    obtain ⟨rest, hrest, rfl⟩ := h
    rcases List.mem_cons.mp hmem with heq | hmem
    · exact absurd heq (by simp)
    · exact ih hrest hmem

/-- A run is one of the ways to end, seen through a part `f` of the world that decides what can be
answered. -/
theorem ends_run (f : V → W) (h : Handler I V) (hR : ∀ q v, R (f v) q (h q v).1 (f (h q v).2))
    (p : Program I ε α) (v : V) :
    p.Ends R (f v) (p.run h v).value (f (p.run h v).world) (p.run h v).history := by
  induction p generalizing v with
  | done a => exact ⟨rfl, rfl, rfl⟩
  | ask q next ih => exact ⟨_, _, _, hR q v, ih _ _, rfl⟩
  | note e next ih => exact ⟨_, ih v, rfl⟩

end Program

end WriteAhead
