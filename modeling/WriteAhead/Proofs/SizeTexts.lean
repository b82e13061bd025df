/-
# Sizes in variables

A variable can give the size as a decimal text.  One that is a signed word is loaded as it is.  A
larger one is read as a binary number of 53 significant bits, so that only multiples of 2048 are
loaded as they are, and the greatest word, which is where sizes end.

* `Settings.readText_toString` : what the decimal text of a number is read as;
* `loadedSize_eq_iff` : which sizes are loaded as they are;
* `OptionsLoader.load_size` : the options that are loaded with a size from a variable.
-/
import WriteAhead.Proofs.Precedence
import Mathlib.Data.List.TakeWhile
import Mathlib.Tactic.IntervalCases

namespace WriteAhead

/-! ## Digits -/

/-- The decimal digits. -/
def digits : List Char := ['0', '1', '2', '3', '4', '5', '6', '7', '8', '9']

theorem mem_digits {c : Char} (h : c.isDigit = true) : c ∈ digits := by
  have hrange : 48 ≤ c.toNat ∧ c.toNat ≤ 57 := by
    simpa [Char.isDigit, UInt32.le_iff_toNat_le] using h
  obtain ⟨hlow, hhigh⟩ := hrange
  rw [← Char.ofNat_toNat c]
  interval_cases c.toNat <;> decide

/-- What holds of the ten digits holds of every character that is a digit. -/
theorem forall_isDigit {P : Char → Prop} [DecidablePred P]
    (h : digits.all (fun c => decide (P c)) = true) : ∀ c, c.isDigit = true → P c :=
  fun c hc => of_decide_eq_true (List.all_eq_true.mp h c (mem_digits hc))

namespace Text

/-- The lower case of a character that is lowered in the same way everywhere. -/
theorem lowerFrom_eq_map {cs : List Char} (h : ∀ c ∈ cs, c ≠ capitalSigma ∧ c ≠ '\u0130')
    (before : List Char) :
    lowerFrom before cs = cs.map fun c => Char.ofNat (lowerCode c.toNat) := by
  induction cs generalizing before with
  | nil => rfl
  | cons c rest ih =>
    obtain ⟨⟨hsigma, hdotted⟩, hrest⟩ := List.forall_mem_cons.mp h
    rw [lowerFrom, ih hrest, lowerChar, if_neg hsigma, if_neg hdotted]
    rfl

theorem lowerFrom_of_isDigit {cs : List Char} (h : ∀ c ∈ cs, c.isDigit = true)
    (before : List Char) : lowerFrom before cs = cs := by
  have hdigits : ∀ c, c.isDigit = true → (c ≠ capitalSigma ∧ c ≠ '\u0130') ∧
      Char.ofNat (lowerCode c.toNat) = c := forall_isDigit (by decide +kernel)
  rw [lowerFrom_eq_map fun c hc => (hdigits c (h c hc)).1]
  exact (List.map_congr_left fun c hc => (hdigits c (h c hc)).2).trans (List.map_id cs)

/-- An underscore ends a word, so that what follows does not matter. -/
theorem startsCased_append (after rest : List Char) :
    startsCased (after ++ '_' :: rest) = startsCased (after ++ ['_']) := by
  have hnot : inRanges caseIgnorableRanges '_'.toNat ≠ true := by decide +kernel
  induction after with
  | nil =>
    show (if _ then _ else _) = if _ then _ else _
    rw [if_neg hnot, if_neg hnot]
  | cons c after ih =>
    show (if _ then startsCased (after ++ '_' :: rest) else _) =
      if _ then startsCased (after ++ ['_']) else _
    rw [ih]

theorem lowerFrom_append (before xs ys : List Char) :
    lowerFrom before (xs ++ '_' :: ys) =
      lowerFrom before (xs ++ ['_']) ++ lowerFrom ('_' :: (xs.reverse ++ before)) ys := by
  induction xs generalizing before with
  | nil => rfl
  | cons x xs ih =>
    have hchar : lowerChar before x (xs ++ '_' :: ys) = lowerChar before x (xs ++ ['_']) := by
      unfold lowerChar
      rw [startsCased_append]
    rw [List.cons_append, List.cons_append, lowerFrom, lowerFrom, hchar, ih, List.append_assoc,
      List.reverse_cons, List.append_assoc]
    rfl

end Text

namespace Decimal

variable {cs : List Char} (h : ∀ c ∈ cs, c.isDigit = true) (hne : cs ≠ [])

include h

theorem digitsValue_eq_ofDigitChars : digitsValue 10 cs = Nat.ofDigitChars 10 cs 0 := by
  have hdigits : ∀ c, c.isDigit = true → digitValue c = c.toNat - '0'.toNat :=
    forall_isDigit (by decide)
  unfold digitsValue Nat.ofDigitChars
  refine List.foldl_ext _ _ _ fun n c hc => ?_
  rw [hdigits c (h c hc), Nat.mul_comm]

theorem splitSign_of_isDigit : splitSign cs = (false, cs) := by
  unfold splitSign
  split
  · exact absurd (h '-' List.mem_cons_self) (by decide)
  · exact absurd (h '+' List.mem_cons_self) (by decide)
  · rfl

include hne in
theorem isDigits_of_isDigit : isDigits cs = true := by
  simpa [isDigits, hne] using h

include hne in
/-- A row of digits is a whole number. -/
theorem readInteger_of_isDigit : readInteger cs = some (digitsValue 10 cs : Int) := by
  unfold readInteger
  rw [splitSign_of_isDigit h]
  exact if_pos (isDigits_of_isDigit h hne)

include hne in
/-- A row of digits is a number without a fraction or an exponent. -/
theorem read_of_isDigit : read cs = some (.finite false (digitsValue 10 cs) 0) := by
  have hdigits : ∀ c, c.isDigit = true →
      c.toLower = c ∧ (!isExponentMark c) = true ∧ (c != '.') = true :=
    forall_isDigit (by decide)
  have hlower : lowerLetters cs = cs :=
    (List.map_congr_left fun c hc => (hdigits c (h c hc)).1).trans (List.map_id cs)
  have hsplit : Parts.split cs = ⟨cs, none, none⟩ := by
    have hmark : ∀ c ∈ cs, (!isExponentMark c) = true :=
      fun c hc => (hdigits c (h c hc)).2.1
    have hpoint : ∀ c ∈ cs, (c != '.') = true :=
      fun c hc => (hdigits c (h c hc)).2.2
    unfold Parts.split
    simp only [List.takeWhile_eq_self_iff.mpr hmark, List.takeWhile_eq_self_iff.mpr hpoint,
      List.dropWhile_eq_nil_iff.mpr hmark, List.dropWhile_eq_nil_iff.mpr hpoint, afterMark]
  have hword : ∀ {c : Char} {word : List Char}, c.isDigit = false →
      String.ofList cs ≠ String.ofList (c :: word) := by
    intro c word hc heq
    have hmem : c ∈ cs := String.ofList_injective heq ▸ List.mem_cons_self
    exact absurd (h c hmem) (by simp [hc])
  unfold read
  rw [splitSign_of_isDigit h]
  simp only [hlower]
  split
  · next heq => exact absurd heq (hword (c := 'i') rfl)
  · next heq => exact absurd heq (hword (c := 'i') rfl)
  · next heq => exact absurd heq (hword (c := 'n') rfl)
  · rw [hsplit]
    simp [Parts.value, isDigits_of_isDigit h hne]

end Decimal

/-! ## Large numbers -/

namespace Binary64

/-- The nearest multiple of 2048, a tie going to the even one. -/
theorem roundHalfEven_cases (n : Nat) :
    2048 * roundHalfEven n 2048 = n ∧ 2048 ∣ n ∨
      ¬ 2048 ∣ n ∧ n ≤ 2048 * roundHalfEven n 2048 + 1024 ∧
        2048 * roundHalfEven n 2048 ≤ n + 1024 := by
  unfold roundHalfEven
  dsimp only
  split <;> [skip; split <;> [skip; split]] <;> omega

variable {n : Nat} (hlarge : 2 ^ 63 ≤ n) (hword : n < 2 ^ 64)

include hlarge hword

/-- A large word has 53 significant bits when it is counted in units of 2048. -/
theorem exponentOf_large : exponentOf n 1 = 11 := by
  have hlog : Nat.log2 n = 63 := (Nat.log2_eq_iff (by omega)).mpr ⟨hlarge, hword⟩
  have hbits : ¬ n / 2048 < 1 <<< 52 := by
    rw [Nat.shiftLeft_eq]
    omega
  unfold exponentOf
  simp only [hlog]
  show max leastExponent (if n / 2048 < 1 <<< 52 then _ else _) = 11
  rw [if_neg hbits]
  rfl

theorem roundMagnitude_ofQuotient_large :
    ∃ m e, ofQuotient false n 1 = .finite false m e ∧
      roundMagnitude m e = 2048 * roundHalfEven n 2048 := by
  have hzero : n ≠ 0 := by omega
  have hscaled : scaled n 1 11 = (n, 2048) := rfl
  unfold ofQuotient
  rw [if_neg hzero]
  simp only [exponentOf_large hlarge hword, hscaled]
  by_cases hcarry : roundHalfEven n 2048 = 1 <<< 53
  · refine ⟨1 <<< 52, 12, ?_, ?_⟩
    · simp only [hcarry, if_true]
      rfl
    · rw [hcarry]
      rfl
  · refine ⟨roundHalfEven n 2048, 11, ?_, ?_⟩
    · simp only [hcarry, if_false]
      rfl
    · show roundHalfEven n 2048 <<< 11 = _
      rw [Nat.shiftLeft_eq]
      omega

theorem toWord_ofDecimal_large :
    (ofDecimal false n 0).toWord =
      UInt64.ofNat (min (2048 * roundHalfEven n 2048) (2 ^ 64 - 1)) := by
  have hzero : n ≠ 0 := by omega
  have hlength : decimalLength n ≤ 20 :=
    (Nat.length_toDigits_le_iff (by omega) (by omega)).mpr (by omega)
  have hquotient : ofDecimal false n 0 = ofQuotient false n 1 := by
    unfold ofDecimal
    rw [if_neg hzero]
    simp only [Int.zero_add]
    rw [if_neg (by omega), if_neg (by omega), if_pos (by omega)]
    simp
  obtain ⟨m, e, hfinite, hmagnitude⟩ := roundMagnitude_ofQuotient_large hlarge hword
  rw [hquotient, hfinite]
  simp only [toWord, hmagnitude]
  rfl

end Binary64

/-- The size that is loaded where a variable holds the decimal text of `n`. -/
def loadedSize (n : Nat) : Nat :=
  if n < 2 ^ 63 then n else min (2048 * Binary64.roundHalfEven n 2048) (2 ^ 64 - 1)

/-- Signed words are loaded as they are, and so are the larger words that a binary number of 53
bits can be, and the greatest of all, which is where its rounding is cut off. -/
theorem loadedSize_eq_iff {n : Nat} (hn : n < 2 ^ 64) :
    loadedSize n = n ↔ n < 2 ^ 63 ∨ 2048 ∣ n ∨ n = 2 ^ 64 - 1 := by
  have hround := Binary64.roundHalfEven_cases n
  unfold loadedSize
  split <;> omega

theorem loadedSize_pos {n : Nat} (hpos : 1 ≤ n) (hn : n < 2 ^ 64) :
    1 ≤ loadedSize n ∧ loadedSize n < 2 ^ 64 := by
  have hround := Binary64.roundHalfEven_cases n
  unfold loadedSize
  split <;> omega

/-! ## Texts of numbers -/

theorem isDigit_of_mem_toDigits {n : Nat} : ∀ c ∈ Nat.toDigits 10 n, c.isDigit = true :=
  fun _ hc => Nat.isDigit_of_mem_toDigits (by omega) (by omega) hc

theorem digitsValue_toDigits (n : Nat) : Decimal.digitsValue 10 (Nat.toDigits 10 n) = n := by
  rw [Decimal.digitsValue_eq_ofDigitChars isDigit_of_mem_toDigits, Nat.ofDigitChars_ten_toDigits]

/-- A decimal text is read as a whole number if it is a signed word, and else as a binary number. -/
theorem Settings.readText_toString (n : Nat) :
    readText (toString n) =
      if n < 2 ^ 63 then .integer n else .number (Binary64.ofDecimal false n 0) := by
  have hlower : Text.lower (toString n) = toString n := by
    unfold Text.lower
    rw [Nat.toString_eq_ofList_toDigits, String.toList_ofList,
      Text.lowerFrom_of_isDigit isDigit_of_mem_toDigits]
  have hword : ∀ (c : Char) (word : List Char), c.isDigit = false →
      toString n ≠ String.ofList (c :: word) := by
    intro c word hc heq
    rw [Nat.toString_eq_ofList_toDigits] at heq
    have hmem : c ∈ Nat.toDigits 10 n := String.ofList_injective heq ▸ List.mem_cons_self
    exact absurd (isDigit_of_mem_toDigits c hmem) (by simp [hc])
  unfold readText
  rw [hlower, if_neg (hword 't' ['r', 'u', 'e'] rfl),
    if_neg (hword 'f' ['a', 'l', 's', 'e'] rfl),
    Nat.toString_eq_ofList_toDigits, String.toList_ofList,
    Decimal.readInteger_of_isDigit isDigit_of_mem_toDigits Nat.toDigits_ne_nil,
    Decimal.read_of_isDigit isDigit_of_mem_toDigits Nat.toDigits_ne_nil, digitsValue_toDigits]
  by_cases hn : n < 2 ^ 63
  · have hsigned : isSignedWord n = true := by
      simp [isSignedWord]
      omega
    rw [Option.filter_some, if_pos hsigned, if_pos hn]
  · have hsigned : isSignedWord n ≠ true := by
      simp [isSignedWord]
      omega
    rw [Option.filter_some, if_neg hsigned, if_neg hn]
    rfl

theorem Setting.wordOf_readText_toString {n : Nat} (hn : n < 2 ^ 64) (o : Option Origin) :
    wordOf (.plain (Settings.readText (toString n)) o) = .ok (UInt64.ofNat (loadedSize n)) := by
  rw [Settings.readText_toString, loadedSize]
  split
  · exact wordOf_integer n o
  · next hlarge =>
    rw [← Binary64.toWord_ofDecimal_large (by omega) hn]
    rfl

/-! ## The variable of the size -/

/-- The name of the variable for the size. -/
def OptionsLoader.sizeVariable (l : OptionsLoader) : String := l.heading ++ "_INITIAL_SIZE"

theorem OptionsLoader.nameOf?_sizeVariable (l : OptionsLoader) :
    Settings.nameOf? l.heading l.sizeVariable = some sizeFieldName := by
  have hplain : ∀ c ∈ "INITIAL_SIZE".toList, c ≠ Text.capitalSigma ∧ c ≠ '\u0130' := by
    have hall : "INITIAL_SIZE".toList.all
        (fun c => c ≠ Text.capitalSigma ∧ c ≠ '\u0130') = true := by
      decide +kernel
    exact fun c hc => of_decide_eq_true (List.all_eq_true.mp hall c hc)
  refine (Settings.nameOf?_eq_some_iff _ _ _).mpr ⟨sizeFieldName.toList, ?_, by decide +kernel⟩
  have hsplit : l.sizeVariable.toList = l.heading.toList ++ '_' :: "INITIAL_SIZE".toList := by
    unfold sizeVariable
    rw [String.toList_append]
    rfl
  have hheading : (Settings.headingText l.heading).toList =
      Text.lowerFrom [] (l.heading.toList ++ ['_']) := by
    unfold Settings.headingText Text.lower
    rw [String.toList_ofList, String.toList_append]
    rfl
  have hfield : "INITIAL_SIZE".toList.map (fun c => Char.ofNat (Text.lowerCode c.toNat)) =
      sizeFieldName.toList := by
    decide +kernel
  unfold Text.lower
  rw [String.toList_ofList, hsplit, Text.lowerFrom_append, Text.lowerFrom_eq_map hplain, hheading,
    hfield]

/-! ## Loading -/

namespace OptionsLoader

variable {l : OptionsLoader} {t : FileTree} {cwd : Location} {env : Environment}
  {fromFile : Settings} {n : Nat}

/-- The variable is the only one whose setting lies at the size or inside it. -/
def OnlySizeVariable (l : OptionsLoader) (v : String × String) (env : Environment) : Prop :=
  v ∈ env ∧ ∀ w ∈ env, ∀ name ∈ Settings.nameOf? l.heading w.1,
    (KeyPath.ofName name).root = sizeFieldName → w = v

instance (l : OptionsLoader) (v : String × String) (env : Environment) :
    Decidable (l.OnlySizeVariable v env) :=
  inferInstanceAs (Decidable (_ ∧ _))

theorem get_layered_size {text : String} (honly : l.OnlySizeVariable (l.sizeVariable, text) env) :
    (l.layered fromFile env).get sizeFieldName =
      .plain (Settings.readText text) (some .environment) := by
  have hsize : KeyPath.IsLiteral sizeFieldName := by decide +kernel
  have hname : ∀ w ∈ env, Settings.nameOf? l.heading w.1 = some sizeFieldName →
      w = (l.sizeVariable, text) := by
    intro w hw hname
    exact honly.2 w hw _ hname (congrArg KeyPath.root (KeyPath.ofName_of_isLiteral hsize))
  have hroot : ∀ e ∈ Settings.ofVariables l.heading env,
      (KeyPath.ofName e.1).root = sizeFieldName → e.1 = sizeFieldName := by
    intro e he hroot
    obtain ⟨w, hw, hname⟩ := Settings.exists_of_mem_ofVariables he
    obtain rfl := honly.2 w hw _ hname hroot
    exact Option.some.inj (hname.symm.trans l.nameOf?_sizeVariable)
  have hfind : (env.reverse.find? fun w => Settings.nameOf? l.heading w.1 = some sizeFieldName) =
      some (l.sizeVariable, text) := by
    cases hfind : env.reverse.find?
        fun w => Settings.nameOf? l.heading w.1 = some sizeFieldName with
    | none =>
      have hnone := List.find?_eq_none.mp hfind _ (List.mem_reverse.mpr honly.1)
      exact absurd l.nameOf?_sizeVariable (by simpa using hnone)
    | some w =>
      rw [hname w (List.mem_reverse.mp (List.mem_of_find?_eq_some hfind))
        (by simpa using List.find?_some hfind)]
  show (Settings.addAll _ _).get sizeFieldName = _
  rw [Settings.get_addAll hsize (Settings.nodup_ofVariables _ _) hroot, Settings.find?_ofVariables,
    hfind]
  rfl

/-- **The size from a variable.**  Whatever else is set, if it leaves a mode and a durability, then
the decimal text of a number from one to the greatest word is loaded: as this number if it is a
signed word, a multiple of 2048 or the greatest word, and else as the nearest multiple of 2048, cut
off at the greatest word. -/
theorem load_size (hfile : l.fileSettings t cwd = .ok fromFile) (hpos : 1 ≤ n) (hn : n < 2 ^ 64)
    (honly : l.OnlySizeVariable (l.sizeVariable, toString n) env)
    {mode : JournalMode} (hmode : ((l.layered fromFile env).get ChoiceField.mode.name).choiceOf
      .mode JournalMode.all JournalMode.key = .ok mode)
    {durability : DurabilitySupport}
    (hdurability : ((l.layered fromFile env).get ChoiceField.durability.name).choiceOf
      .durability DurabilitySupport.all DurabilitySupport.key = .ok durability) :
    l.load t cwd env = .ok ⟨mode, durability, UInt64.ofNat (loadedSize n)⟩ ∧
      (loadedSize n = n ↔ n < 2 ^ 63 ∨ 2048 ∣ n ∨ n = 2 ^ 64 - 1) := by
  refine ⟨?_, loadedSize_eq_iff hn⟩
  rw [load_eq hfile, JournalOptions.checked_eq_ok_iff, JournalOptions.ofSettings_eq_ok_iff]
  refine ⟨⟨hmode, hdurability, ?_⟩, ?_⟩
  · rw [get_layered_size honly]
    exact Setting.wordOf_readText_toString hn _
  · obtain ⟨hleast, hgreatest⟩ := loadedSize_pos hpos hn
    intro hzero
    have hnat : (UInt64.ofNat (loadedSize n)).toNat = 0 := congrArg UInt64.toNat hzero
    rw [UInt64.toNat_ofNat_of_lt' hgreatest] at hnat
    omega

/-- The size from a variable beside a mode from another. -/
theorem load_size_beside_mode :
    let l := OptionsLoader.standard
    let n := 2 ^ 63 + 2048
    let env := [("DURAJOURNAL_MODE", "danger"), (l.sizeVariable, toString n), ("HOME", "7")]
    (l.fileSettings FileTree.empty [] = .ok [] ∧ 1 ≤ n ∧ n < 2 ^ 64 ∧
        l.OnlySizeVariable (l.sizeVariable, toString n) env) ∧
      l.load FileTree.empty [] env = .ok ⟨.danger, .supported, UInt64.ofNat (loadedSize n)⟩ ∧
      loadedSize n = n := by
  intro l n env
  have hfile : l.fileSettings FileTree.empty [] = .ok [] := rfl
  have hn : 1 ≤ n ∧ n < 2 ^ 64 := by decide
  have honly : l.OnlySizeVariable (l.sizeVariable, toString n) env := by decide +kernel
  have hmode : ((l.layered [] env).get ChoiceField.mode.name).choiceOf .mode JournalMode.all
      JournalMode.key = .ok .danger := toOption_eq_some_iff.mp (by decide +kernel)
  have hdurability : ((l.layered [] env).get ChoiceField.durability.name).choiceOf .durability
      DurabilitySupport.all DurabilitySupport.key = .ok .supported :=
    toOption_eq_some_iff.mp (by decide +kernel)
  have hload := load_size hfile hn.1 hn.2 honly hmode hdurability
  exact ⟨⟨hfile, hn.1, hn.2, honly⟩, hload.1, hload.2.mpr (.inr (.inl (by decide)))⟩

/-- Not every size is loaded as it is: the last bit of a large one is lost. -/
theorem load_size_inexact :
    ¬ ∀ n, 1 ≤ n → n < 2 ^ 64 →
      OptionsLoader.standard.load FileTree.empty []
          [(OptionsLoader.standard.sizeVariable, toString n)] =
        .ok { JournalOptions.standard with initialSize := UInt64.ofNat n } := by
  intro h
  have hexact := congrArg Except.toOption (h (2 ^ 63 + 1) (by decide) (by decide))
  exact absurd hexact (by decide +kernel)

end OptionsLoader

end WriteAhead
