/-
# Loaded options keep the contract of opening

A journal is opened with a positive size; opening panics at zero, and nothing else about opening
can panic.  Loading checks the size after it was converted, so that no spelling of zero gets
through.

Main statements:

* `Journal.value_openForWrite_ne_panic` : a positive size keeps the contract of opening;
* `Setting.wordOf_eq_zero_iff` : the settings that mean the size zero;
* `OptionsLoader.load_keeps_contract` : loaded options keep the contract, and options are refused as
  invalid exactly where the size is the only thing that breaks it.
-/
import WriteAhead.Proofs.Session
import WriteAhead.Proofs.SizeTexts

namespace WriteAhead

open Program

/-! ## Opening -/

/-- The value of a journal program on a platform is the one against the replies that the platform
serves. -/
theorem Platform.value_run {I : Interface} {W α : Type} (x : Platform I W) (p : StepProgram α)
    (w : W) : (x.run p w).value = (p.run (served x.serve x.handler) w).value :=
  (run_through _ x.handler p w).1

/-- A journal that is opened with a positive size is opened, or ends in an error. -/
theorem Journal.value_openForWrite_ne_panic {W : Type} (h : Handler Steps W) (w : W) (t : Features)
    (path : Path) (mode : JournalMode) {size : UInt64} (hsize : size ≠ 0)
    (support : DurabilitySupport) (p : Panic) :
    ((openForWrite t path mode size support).run h w).value ≠ .error (.panic p) := by
  unfold openForWrite
  rw [if_neg hsize, run_bind, Run.value_after]
  cases ((Step.openForWrite path (.forJournal mode support)).take.run h w).value with
  | error e => simp
  | ok d =>
    simp only
    rw [run_bind, Run.value_after]
    split
    · simp [emit]
    · rw [run_bind, Run.value_after]
      simp

/-! ## Settings that mean zero -/

theorem ofNat_eq_zero_iff {n : Nat} (hn : n < 2 ^ 64) : UInt64.ofNat n = 0 ↔ n = 0 := by
  rw [← UInt64.toNat_inj, UInt64.toNat_ofNat_of_lt' hn]
  rfl

namespace Binary64

/-- The number is none, or it is below one half. -/
def RoundsToZero : Binary64 → Prop
  | notANumber => True
  | infinite negative => negative = true
  | finite negative m e => negative = true ∨ 2 * (m * 2 ^ e.toNat) < 2 ^ (-e).toNat

theorem roundMagnitude_eq_zero_iff (m : Nat) (e : Int) :
    roundMagnitude m e = 0 ↔ 2 * (m * 2 ^ e.toNat) < 2 ^ (-e).toNat := by
  unfold roundMagnitude
  split
  · next he =>
    have hzero : (-e).toNat = 0 := by omega
    rw [Nat.shiftLeft_eq, hzero]
    omega
  · next he =>
    have hzero : e.toNat = 0 := by omega
    have hpos : 0 < 2 ^ (-e).toNat := Nat.two_pow_pos _
    rw [roundHalfUp, Nat.shiftLeft_eq, hzero, Nat.div_eq_zero_iff]
    omega

theorem toWord_eq_zero_iff (x : Binary64) : x.toWord = 0 ↔ x.RoundsToZero := by
  cases x with
  | notANumber => simp [toWord, RoundsToZero]
  | infinite negative => cases negative <;> simp [toWord, RoundsToZero]
  | finite negative m e =>
    cases negative with
    | true => simp [toWord, RoundsToZero]
    | false =>
      have hsmall : min (roundMagnitude m e) 0xFFFFFFFFFFFFFFFF = 0 ↔ roundMagnitude m e = 0 := by
        omega
      show UInt64.ofNat (min (roundMagnitude m e) 0xFFFFFFFFFFFFFFFF) = 0 ↔ false = true ∨ _
      rw [ofNat_eq_zero_iff (by omega), hsmall, roundMagnitude_eq_zero_iff]
      simp

end Binary64

/-! ## Texts that mean zero -/

namespace Decimal

theorem foldl_digits_eq_zero_iff {cs : List Char} (h : ∀ c ∈ cs, c.isDigit = true) (n : Nat) :
    cs.foldl (fun n c => n * 10 + digitValue c) n = 0 ↔ n = 0 ∧ ∀ c ∈ cs, c = '0' := by
  have hdigit : ∀ c, c.isDigit = true → (digitValue c = 0 ↔ c = '0') :=
    forall_isDigit (by decide)
  induction cs generalizing n with
  | nil => simp
  | cons c rest ih =>
    obtain ⟨hc, hrest⟩ := List.forall_mem_cons.mp h
    have hvalue := hdigit c hc
    refine (ih hrest (n * 10 + digitValue c)).trans ?_
    rw [List.forall_mem_cons, ← hvalue]
    constructor
    · rintro ⟨hn, hall⟩
      exact ⟨by omega, by omega, hall⟩
    · rintro ⟨rfl, hzero, hall⟩
      exact ⟨by omega, hall⟩

/-- Only noughts are digits whose value is zero. -/
theorem digits_eq_zero_iff (cs : List Char) :
    isDigits cs = true ∧ digitsValue 10 cs = 0 ↔ ∃ n, cs = List.replicate (n + 1) '0' := by
  constructor
  · rintro ⟨hdigits, hvalue⟩
    have h : cs ≠ [] ∧ ∀ c ∈ cs, c.isDigit = true := by simpa [isDigits] using hdigits
    obtain ⟨-, hall⟩ := (foldl_digits_eq_zero_iff h.2 0).mp hvalue
    refine ⟨cs.length - 1, ?_⟩
    have hlength : 0 < cs.length := List.length_pos_iff.mpr h.1
    rw [Nat.sub_add_cancel hlength]
    exact List.eq_replicate_of_mem hall
  · rintro ⟨n, rfl⟩
    have hall : ∀ c ∈ List.replicate (n + 1) '0', c = '0' := fun c hc => List.eq_of_mem_replicate hc
    have hdigits : ∀ c ∈ List.replicate (n + 1) '0', c.isDigit = true := fun c hc => by
      rw [hall c hc]
      decide
    exact ⟨isDigits_of_isDigit hdigits (by simp),
      (foldl_digits_eq_zero_iff hdigits 0).mpr ⟨rfl, hall⟩⟩

/-- The characters are noughts, perhaps after a plus sign. -/
def IsNought (cs : List Char) : Prop :=
  ∃ n, cs = List.replicate (n + 1) '0' ∨ cs = '+' :: List.replicate (n + 1) '0'

theorem IsNought.mem {cs : List Char} (h : IsNought cs) : ∀ c ∈ cs, c ∈ ['+', '0'] := by
  obtain ⟨n, rfl | rfl⟩ := h <;> simp +contextual [List.mem_replicate]

theorem readNatural_eq_zero_iff (cs : List Char) : readNatural cs = some 0 ↔ IsNought cs := by
  have hrow (cs : List Char) :
      (if isDigits cs then some (digitsValue 10 cs) else none) = some 0 ↔
        ∃ n, cs = List.replicate (n + 1) '0' := by
    rw [← digits_eq_zero_iff]
    split <;> simp [*]
  unfold IsNought
  rw [exists_or]
  cases cs with
  | nil => simp [readNatural, isDigits]
  | cons c rest =>
    by_cases hplus : c = '+'
    · subst hplus
      simpa [readNatural, List.replicate_succ] using hrow rest
    · have hread : readNatural (c :: rest) =
          if isDigits (c :: rest) then some (digitsValue 10 (c :: rest)) else none := by
        unfold readNatural
        split
        · next heq => exact absurd (List.cons.inj heq).1 hplus
        · rfl
      rw [hread, hrow]
      simp [hplus]

end Decimal

/-- Noughts are the same in lower case. -/
theorem Text.lower_of_isNought {text : String} (h : Decimal.IsNought text.toList) :
    Text.lower text = text := by
  have hplain : ∀ c ∈ ['+', '0'], (c ≠ capitalSigma ∧ c ≠ '\u0130') ∧
      Char.ofNat (lowerCode c.toNat) = c := by
    simp only [List.forall_mem_cons]
    exact ⟨by decide +kernel, by decide +kernel, List.forall_mem_nil _⟩
  unfold Text.lower
  rw [lowerFrom_eq_map fun c hc => (hplain c (h.mem c hc)).1,
    List.map_congr_left fun c hc => (hplain c (h.mem c hc)).2, List.map_id', String.ofList_toList]

/-! ## Settings that mean zero -/

/-- The answers that mean no. -/
def denials : List String := ["false", "off", "no"]

/-- The plain setting spells the size zero. -/
def PlainSetting.MeansZero : PlainSetting → Prop
  | .boolean b => b = false
  | .integer n => n = 0
  | .number x => x.RoundsToZero
  | .text t => Text.lower t ∈ denials ∨ Decimal.IsNought t.toList

namespace Setting

/-- A text gives the size zero if it is an answer that means no, or spells the number. -/
theorem wordOfText_eq_zero_iff (text : String) :
    wordOfText text = some 0 ↔ Text.lower text ∈ denials ∨ Decimal.IsNought text.toList := by
  have hnought : Decimal.IsNought text.toList → Text.lower text ∉ ["true", "on", "yes"] := by
    intro h hmem
    rw [Text.lower_of_isNought h] at hmem
    have hletters : ∀ answer ∈ ["true", "on", "yes"], ¬ ∀ c ∈ answer.toList, c ∈ ['+', '0'] := by
      simp
    exact hletters text hmem h.mem
  have hdisjoint : ∀ answer ∈ denials, answer ∉ ["true", "on", "yes"] := by decide +kernel
  simp only [wordOfText]
  split
  · next h =>
    have hyes : Text.lower text ∈ ["true", "on", "yes"] := by simpa using h
    constructor
    · simp
    · rintro (hno | hzero)
      · exact absurd hyes (hdisjoint _ hno)
      · exact absurd hyes (hnought hzero)
  · split
    · next h => exact iff_of_true rfl (.inl (by simpa [denials] using h))
    · next h =>
      have hno : Text.lower text ∉ denials := by simpa [denials] using h
      rw [or_iff_right hno, ← Decimal.readNatural_eq_zero_iff]
      cases Decimal.readNatural text.toList with
      | none => simp
      | some n =>
        by_cases hn : n < 0x10000000000000000
        · simp [hn, ofNat_eq_zero_iff hn]
        · simp [hn]
          omega

theorem wordOfPlain_eq_zero_iff {p : PlainSetting} (hword : ∀ n, p = .integer n → n < 2 ^ 64) :
    wordOfPlain p = some 0 ↔ p.MeansZero := by
  cases p with
  | boolean b => cases b <;> simp [wordOfPlain, PlainSetting.MeansZero]
  | integer n =>
    have hn := hword n rfl
    simp only [wordOfPlain, PlainSetting.MeansZero]
    split
    · rw [Option.some.injEq, ofNat_eq_zero_iff (by omega)]
      omega
    · simp
      omega
  | number x => simpa [wordOfPlain, PlainSetting.MeansZero] using x.toWord_eq_zero_iff
  | text t => exact wordOfText_eq_zero_iff t

/-- The settings that give the size zero are those that spell it. -/
theorem wordOf_eq_zero_iff {p : PlainSetting} (hword : ∀ n, p = .integer n → n < 2 ^ 64)
    (o : Option Origin) : wordOf (.plain p o) = .ok 0 ↔ p.MeansZero := by
  rw [← wordOfPlain_eq_zero_iff hword]
  simp only [wordOf]
  cases wordOfPlain p <;> simp

end Setting

/-! ## Loading -/

namespace JournalOptions

theorem validate_eq_invalid_iff {o : JournalOptions} :
    o.validate = .error .invalid ↔ o.initialSize = 0 := by
  unfold validate isValid
  by_cases hsize : o.initialSize = 0 <;> simp [hsize]

/-- Settings give invalid options if they give options, and the size is zero. -/
theorem checked_eq_invalid_iff {s : Settings} :
    checked s = .error .invalid ↔ ∃ mode durability, ofSettings s = .ok ⟨mode, durability, 0⟩ := by
  cases ho : ofSettings s with
  | error e =>
    have hchecked : checked s = .error (.load e) := by
      unfold checked
      rw [ho]
      rfl
    simp [hchecked]
  | ok o =>
    have hchecked : checked s = o.validate := by
      unfold checked
      rw [ho]
      rfl
    rw [hchecked, validate_eq_invalid_iff]
    constructor
    · intro hsize
      exact ⟨o.mode, o.durability, by rw [← hsize]⟩
    · rintro ⟨mode, durability, h⟩
      rw [Except.ok.inj h]

end JournalOptions

namespace OptionsLoader

variable {l : OptionsLoader} {t : FileTree} {cwd : Location} {env : Environment}

theorem load_of_fileSettings_eq_error {e : LoadError} (hfile : l.fileSettings t cwd = .error e) :
    l.load t cwd env = .error (.load e) := by
  unfold load
  rw [hfile]
  rfl

theorem initialSize_ne_zero_of_load {o : JournalOptions} (h : l.load t cwd env = .ok o) :
    o.initialSize ≠ 0 := by
  cases hfile : l.fileSettings t cwd with
  | error e =>
    rw [load_of_fileSettings_eq_error hfile] at h
    exact absurd h (by simp)
  | ok fromFile =>
    rw [load_eq hfile] at h
    exact (JournalOptions.checked_eq_ok_iff.mp h).2

/-- Options are refused as invalid if they were given by the settings that are left, with the size
zero. -/
theorem load_eq_invalid_iff : l.load t cwd env = .error .invalid ↔
    ∃ fromFile mode durability, l.fileSettings t cwd = .ok fromFile ∧
      JournalOptions.ofSettings (l.layered fromFile env) = .ok ⟨mode, durability, 0⟩ := by
  cases hfile : l.fileSettings t cwd with
  | error e => simp [load_of_fileSettings_eq_error hfile]
  | ok fromFile => simp [load_eq hfile, JournalOptions.checked_eq_invalid_iff]

/-- **Loaded options keep the contract of opening.**  Options that are loaded, from whatever file
and variables, have a positive size and pass their check, so that on no platform opening a journal
with them panics.  They are refused as invalid if and only if the mode and the durability convert
and the size converts to zero, in whichever way zero is spelled. -/
theorem load_keeps_contract (l : OptionsLoader) (t : FileTree) (cwd : Location)
    (env : Environment) :
    (∀ o, l.load t cwd env = .ok o →
      1 ≤ o.initialSize.toNat ∧ o.validate = .ok o ∧
      ∀ (I : Interface) (W : Type) (x : Platform I W) (path : Path) (w : W),
        let r := x.run (Journal.openWithOptions x.features path o) w
        r = x.run (Journal.openForWrite x.features path o.mode o.initialSize o.durability) w ∧
          ∀ p, r.value ≠ .error (.panic p)) ∧
    (l.load t cwd env = .error .invalid ↔ ∃ fromFile mode durability,
      l.fileSettings t cwd = .ok fromFile ∧
      ((l.layered fromFile env).get ChoiceField.mode.name).choiceOf .mode JournalMode.all
        JournalMode.key = .ok mode ∧
      ((l.layered fromFile env).get ChoiceField.durability.name).choiceOf .durability
        DurabilitySupport.all DurabilitySupport.key = .ok durability ∧
      ((l.layered fromFile env).get sizeFieldName).wordOf = .ok 0) ∧
    (∀ (p : PlainSetting) (o : Option Origin), p.MeansZero → (Setting.plain p o).wordOf = .ok 0) ∧
    ∀ file, JournalOptions.load file t cwd env = load ⟨file, standardHeading⟩ t cwd env := by
  refine ⟨fun o ho => ?_, ?_, fun p o hp => ?_, fun file => rfl⟩
  · have hsize : o.initialSize ≠ 0 := initialSize_ne_zero_of_load ho
    refine ⟨?_, JournalOptions.validate_eq_ok_iff.mpr ⟨rfl, hsize⟩, ?_⟩
    · exact Nat.pos_of_ne_zero fun hzero => hsize (UInt64.toNat_inj.mp hzero)
    · intro I W x path w
      refine ⟨rfl, fun p => ?_⟩
      rw [Platform.value_run]
      exact Journal.value_openForWrite_ne_panic _ w _ _ _ hsize _ p
  · rw [load_eq_invalid_iff]
    simp only [JournalOptions.ofSettings_eq_ok_iff]
  · refine (Setting.wordOf_eq_zero_iff ?_ o).mpr hp
    rintro n rfl
    obtain rfl : n = 0 := hp
    decide

/-- Zero is refused however it is spelled. -/
example : ∀ text ∈ ["0", "no", "False", "0.4999", "-7.5", "nan", "-inf"],
    (OptionsLoader.standard.load FileTree.empty [] [("DURAJOURNAL_INITIAL_SIZE", text)]).mapError
        OptionsError.message =
      .error "invalid journal options: initial_size must be greater than zero" := by
  decide +kernel

end OptionsLoader

end WriteAhead
