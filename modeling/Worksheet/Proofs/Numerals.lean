import Worksheet.Formula.Lexer
import Worksheet.Proofs.Blanks
import Worksheet.Proofs.ScientificNotation

/-!
Runs of digits and points. Such a run writes a number when it has a digit and no second point: the
digits in front of the point and those behind it are read as one whole number, which counts a tenth
for each of those behind it. Neither a sign nor an exponent can occur in it.
-/
namespace Worksheet.Formula

open Text Number

/-- The digits of a run, without the point, as one whole number. -/
def wholeDigits (run : List Char) : Nat := Nat.ofDigitChars 10 (run.filter (· ≠ '.')) 0

/-- How many digits of a run stand behind the point. -/
def placesBehind (run : List Char) : Nat := ((run.dropWhile (· ≠ '.')).drop 1).length

/-- The double that digits with at most one point among them write. -/
def writtenDouble (run : List Char) : Float :=
  Float.ofScientific (wholeDigits run) (decide (0 < placesBehind run)) (placesBehind run)

/-- The decimal that they write. -/
def writtenDecimal (run : List Char) : Decimal :=
  ⟨false, wholeDigits run, -(placesBehind run : Int)⟩

section Numerals
variable {run whole fraction behind : List Char}

/-! ### Digits and points -/

theorem isNumeral_iff {c : Char} : isNumeral c = true ↔ isAsciiDigit c = true ∨ c = '.' := by
  unfold isNumeral
  rw [Bool.or_eq_true, beq_iff_eq]

theorem not_of_dropWhile_eq_cons {p : Char → Bool} {d : Char} {cs : List Char}
    (h : cs.dropWhile p = d :: behind) : p d = false := by
  have hhead := List.head?_dropWhile_not p cs
  rw [h] at hhead
  exact hhead

/-- Digits come to their end at a point or at the end of the run. -/
theorem exists_digits (h : ∀ c ∈ run, isNumeral c = true) :
    ∃ digits, (∀ c ∈ digits, isAsciiDigit c = true) ∧ (run = digits ∨
      ∃ behind, run = digits ++ '.' :: behind ∧ ∀ c ∈ behind, isNumeral c = true) := by
  have hsplit := List.takeWhile_append_dropWhile (p := isAsciiDigit) (l := run)
  refine ⟨run.takeWhile isAsciiDigit, fun c hc => List.mem_takeWhile_imp hc, ?_⟩
  cases hdrop : run.dropWhile isAsciiDigit with
  | nil =>
    rw [hdrop, List.append_nil] at hsplit
    exact .inl hsplit.symm
  | cons c behind =>
    have hmem : ∀ d ∈ c :: behind, isNumeral d = true := by
      intro d hd
      rw [← hdrop] at hd
      exact h d ((List.dropWhile_suffix isAsciiDigit).subset hd)
    have hpoint : c = '.' := by
      have hc := isNumeral_iff.mp (hmem c List.mem_cons_self)
      rw [not_of_dropWhile_eq_cons hdrop] at hc
      simpa using hc
    rw [hdrop, hpoint] at hsplit
    exact .inr ⟨behind, hsplit.symm, fun d hd => hmem d (List.mem_cons_of_mem c hd)⟩

theorem readSign_of_numeral (h : ∀ c ∈ run, isNumeral c = true) : readSign run = (false, run) := by
  unfold readSign
  split
  · have hplus : isNumeral '+' = true := h '+' List.mem_cons_self
    cases hplus
  · have hminus : isNumeral '-' = true := h '-' List.mem_cons_self
    cases hminus
  · rfl

theorem readMantissa_of_digits (h : ∀ c ∈ whole, isAsciiDigit c = true)
    (hbehind : ∀ c ∈ behind.head?, isNumeral c = false) :
    readMantissa (whole ++ behind) = if whole = [] then none else some (⟨whole, []⟩, behind) := by
  have hclass : ∀ c ∈ behind.head?, isAsciiDigit c = false ∧ c ≠ '.' := by
    intro c hc
    simpa [isNumeral] using hbehind c hc
  obtain ⟨htake, hdrop⟩ := takeWhile_dropWhile_append h fun c hc => (hclass c hc).1
  unfold readMantissa
  rw [htake, hdrop]
  split
  · exact absurd rfl (hclass '.' rfl).2
  · simp only [List.isEmpty_iff]

theorem readMantissa_of_point (hwhole : ∀ c ∈ whole, isAsciiDigit c = true)
    (hfraction : ∀ c ∈ fraction, isAsciiDigit c = true)
    (hbehind : ∀ c ∈ behind.head?, isAsciiDigit c = false) :
    readMantissa (whole ++ '.' :: (fraction ++ behind)) =
      if whole = [] ∧ fraction = [] then none else some (⟨whole, fraction⟩, behind) := by
  have hpoint : ∀ c ∈ ('.' :: (fraction ++ behind)).head?, isAsciiDigit c = false := by
    rintro c ⟨⟩
    decide
  obtain ⟨htake, hdrop⟩ := takeWhile_dropWhile_append hwhole hpoint
  obtain ⟨htake', hdrop'⟩ := takeWhile_dropWhile_append hfraction hbehind
  unfold readMantissa
  rw [htake, hdrop]
  simp only [htake', hdrop', Bool.and_eq_true, List.isEmpty_iff]

theorem count_point_of_digits (h : ∀ c ∈ whole, isAsciiDigit c = true) : whole.count '.' = 0 := by
  apply List.count_eq_zero.mpr
  intro hpoint
  have hdigit : isAsciiDigit '.' = true := h '.' hpoint
  cases hdigit

theorem any_isAsciiDigit_iff (hwhole : ∀ c ∈ whole, isAsciiDigit c = true)
    (hfraction : ∀ c ∈ fraction, isAsciiDigit c = true) :
    (whole ++ '.' :: fraction).any isAsciiDigit = true ↔ ¬ (whole = [] ∧ fraction = []) := by
  rw [List.any_eq_true]
  constructor
  · rintro ⟨c, hc, hdigit⟩ ⟨rfl, rfl⟩
    obtain rfl : c = '.' := by simpa using hc
    cases hdigit
  · intro hne
    by_cases hempty : whole = []
    · obtain ⟨c, hc⟩ := List.exists_mem_of_ne_nil fraction fun h => hne ⟨hempty, h⟩
      exact ⟨c, by simp [hc], hfraction c hc⟩
    · obtain ⟨c, hc⟩ := List.exists_mem_of_ne_nil whole hempty
      exact ⟨c, by simp [hc], hwhole c hc⟩

theorem digitsValue_eq (cs : List Char) : digitsValue cs = Nat.ofDigitChars 10 cs 0 := by
  rw [Nat.ofDigitChars_eq_foldl]
  unfold digitsValue
  congr 1
  funext n c
  rw [Nat.mul_comm]
  rfl

theorem ne_point_of_digits (h : ∀ c ∈ whole, isAsciiDigit c = true) :
    ∀ c ∈ whole, decide (c ≠ '.') = true := by
  intro c hc
  rw [decide_eq_true_eq]
  rintro rfl
  have hdigit : isAsciiDigit '.' = true := h '.' hc
  cases hdigit

theorem writtenDecimal_of_digits (h : ∀ c ∈ whole, isAsciiDigit c = true) :
    writtenDecimal whole = ⟨false, digitsValue whole, 0⟩ := by
  have hpoint := ne_point_of_digits h
  unfold writtenDecimal wholeDigits placesBehind
  rw [List.filter_eq_self.mpr hpoint, List.dropWhile_eq_nil_iff.mpr hpoint, digitsValue_eq]
  rfl

theorem writtenDecimal_of_point (hwhole : ∀ c ∈ whole, isAsciiDigit c = true)
    (hfraction : ∀ c ∈ fraction, isAsciiDigit c = true) :
    writtenDecimal (whole ++ '.' :: fraction) =
      ⟨false, digitsValue (whole ++ fraction), -(fraction.length : Int)⟩ := by
  have hpoint := ne_point_of_digits hwhole
  unfold writtenDecimal wholeDigits placesBehind
  rw [List.dropWhile_append_of_pos hpoint, List.filter_append, List.filter_eq_self.mpr hpoint,
    digitsValue_eq]
  show Decimal.mk false (Nat.ofDigitChars 10 (whole ++ fraction.filter (· ≠ '.')) 0) _ = _
  rw [List.filter_eq_self.mpr (ne_point_of_digits hfraction)]
  rfl

theorem toFloat_writtenDecimal (run : List Char) :
    (writtenDecimal run).toFloat = writtenDouble run := by
  have hsign : decide (-(placesBehind run : Int) < 0) = decide (0 < placesBehind run) :=
    decide_eq_decide.mpr (by omega)
  have hdouble := Decimal.toFloat_eq (writtenDecimal run)
  unfold writtenDecimal at hdouble ⊢
  rw [hdouble, if_neg Bool.false_ne_true, hsign, Int.natAbs_neg, Int.natAbs_natCast]
  rfl

/-- The double is the nearest one to the whole number over a ten for each digit behind the point. -/
theorem isNearest_writtenDouble (run : List Char) :
    IsNearest (writtenDouble run) (wholeDigits run / 10 ^ placesBehind run) := by
  have hnearest := (writtenDecimal run).isNearest_toFloat
  rw [toFloat_writtenDecimal] at hnearest
  have hvalue : (writtenDecimal run).value = wholeDigits run / 10 ^ placesBehind run := by
    rw [Decimal.value]
    show (1 : ℚ) * wholeDigits run * 10 ^ (-(placesBehind run : Int)) = _
    rw [one_mul, zpow_neg, zpow_natCast, div_eq_mul_inv]
  rwa [hvalue] at hnearest

/-! ### Numbers -/

/-- A run of digits and points is a number when it has a digit and no second point. -/
theorem readNumeral_of_numeral (h : ∀ c ∈ run, isNumeral c = true) :
    readNumeral run = if run.count '.' ≤ 1 ∧ run.any isAsciiDigit = true
      then some (writtenDecimal run) else none := by
  unfold readNumeral
  rw [readSign_of_numeral h]
  dsimp only
  obtain ⟨whole, hwhole, rfl | ⟨later, rfl, hlater⟩⟩ := exists_digits h
  · -- There is no point.
    have hread : readMantissa (run ++ []) = _ := readMantissa_of_digits hwhole (by simp)
    rw [List.append_nil] at hread
    rw [hread, writtenDecimal_of_digits hwhole]
    by_cases hempty : run = []
    · rw [if_pos hempty, hempty]
      simp
    · obtain ⟨c, hc⟩ := List.exists_mem_of_ne_nil run hempty
      have hcount := count_point_of_digits hwhole
      rw [if_neg hempty, if_pos ⟨by omega, List.any_eq_true.mpr ⟨c, hc, hwhole c hc⟩⟩]
      simp [readExponent, Mantissa.coefficient]
  · obtain ⟨fraction, hfraction, rfl | ⟨more, rfl, -⟩⟩ := exists_digits hlater
    · have hread : readMantissa (whole ++ '.' :: (later ++ [])) = _ :=
        readMantissa_of_point hwhole hfraction (by simp)
      have hcount : (whole ++ '.' :: later).count '.' = 1 := by
        simp [count_point_of_digits hwhole, count_point_of_digits hfraction]
      have hdigit := any_isAsciiDigit_iff hwhole hfraction
      rw [List.append_nil] at hread
      rw [hread, writtenDecimal_of_point hwhole hfraction]
      by_cases hempty : whole = [] ∧ later = []
      · rw [if_pos hempty, if_neg fun hboth => hdigit.mp hboth.2 hempty]
      · have hboth := And.intro hcount.le (hdigit.mpr hempty)
        rw [if_neg hempty, if_pos hboth]
        simp [readExponent, Mantissa.coefficient]
    · -- Behind the mantissa there is a point, which is no exponent.
      have hcount : ¬ (whole ++ '.' :: (fraction ++ '.' :: more)).count '.' ≤ 1 := by
        simp only [List.count_append, List.count_cons_self]
        omega
      rw [readMantissa_of_point hwhole hfraction (by simp [isAsciiDigit])]
      simp only [hcount, false_and, if_false]
      by_cases hempty : whole = [] ∧ fraction = []
      · rw [if_pos hempty]
      · rw [if_neg hempty]
        rfl

theorem numberToken_of_number (h : ∀ c ∈ run, isNumeral c = true) (hpoints : run.count '.' ≤ 1)
    (hdigit : ∃ c ∈ run, isAsciiDigit c = true) :
    numberToken run = .ok (.number (writtenDouble run)) := by
  unfold numberToken
  rw [readNumeral_of_numeral h, if_pos ⟨hpoints, List.any_eq_true.mpr hdigit⟩]
  show Except.ok (Token.number (writtenDecimal run).toFloat) = _
  rw [toFloat_writtenDecimal]

theorem numberToken_of_malformed (h : ∀ c ∈ run, isNumeral c = true)
    (hrun : 2 ≤ run.count '.' ∨ ∀ c ∈ run, isAsciiDigit c = false) :
    numberToken run = .error .number := by
  have hnone : ¬ (run.count '.' ≤ 1 ∧ run.any isAsciiDigit = true) := by
    rintro ⟨hpoints, hsome⟩
    obtain ⟨c, hc, hdigit⟩ := List.any_eq_true.mp hsome
    rcases hrun with htwo | hnodigit
    · omega
    · rw [hnodigit c hc] at hdigit
      cases hdigit
  unfold numberToken
  rw [readNumeral_of_numeral h, if_neg hnone]

end Numerals

end Worksheet.Formula
