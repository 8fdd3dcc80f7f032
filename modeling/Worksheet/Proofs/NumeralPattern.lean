import Mathlib.Computability.RegularExpressions
import Worksheet.Proofs.Numerals

/-!
The texts that are numerals. `Pattern.numeral` says which they are: a sign or none, digits with at
most one point before, among or behind them, and an exponent or none. A `Numeral` has the same texts
by their parts, and the decimal that the parts write. The reader takes the texts of the pattern and
no others, and reads each of them as that decimal.
-/
namespace Worksheet.Number

open Text Formula RegularExpression

/-! ### The pattern -/

namespace Pattern

def oneOf (cs : List Char) : RegularExpression Char := (cs.map char).foldr (· + ·) 0

def optional (p : RegularExpression Char) : RegularExpression Char := 1 + p

def digit : RegularExpression Char := oneOf ['0', '1', '2', '3', '4', '5', '6', '7', '8', '9']

def digits : RegularExpression Char := digit * digit.star

def sign : RegularExpression Char := oneOf ['+', '-']

def mantissa : RegularExpression Char :=
  digits * optional (char '.') * digit.star + char '.' * digits

def exponent : RegularExpression Char := oneOf ['e', 'E'] * optional sign * digits

/-- The pattern `[+-]?(\d+\.?\d*|\.\d+)([eE][+-]?\d+)?`. -/
def numeral : RegularExpression Char := optional sign * mantissa * optional exponent

end Pattern

/-! ### The parts of a numeral -/

/-- A sign that is written out. -/
inductive Sign where
  | plus
  | minus
  deriving DecidableEq, Repr

def signSpelling : Option Sign → List Char
  | none => []
  | some .plus => ['+']
  | some .minus => ['-']

def signed (s : Option Sign) (n : Nat) : Int := if s = some .minus then -(n : Int) else n

/-- An exponent as it is written. -/
structure Exponent where
  letter : Char
  sign : Option Sign
  digits : List Char
  isLetter : letter = 'e' ∨ letter = 'E'
  nonempty : digits ≠ []
  isDigit : ∀ c ∈ digits, isAsciiDigit c = true

def exponentSpelling : Option Exponent → List Char
  | none => []
  | some e => e.letter :: (signSpelling e.sign ++ e.digits)

def exponentValue : Option Exponent → Int
  | none => 0
  | some e => signed e.sign (Nat.ofDigitChars 10 e.digits 0)

/-- The point and what stands behind it, if there is a point. -/
def pointSpelling : Option (List Char) → List Char
  | none => []
  | some fraction => '.' :: fraction

/-- A numeral as it is written. -/
structure Numeral where
  sign : Option Sign
  whole : List Char
  fraction : Option (List Char)
  exponent : Option Exponent
  isDigit : ∀ c ∈ whole ++ fraction.getD [], isAsciiDigit c = true
  nonempty : whole ++ fraction.getD [] ≠ []

namespace Numeral

def spelling (n : Numeral) : List Char :=
  signSpelling n.sign ++ (n.whole ++ (pointSpelling n.fraction ++ exponentSpelling n.exponent))

/-- The digits of the mantissa as one whole number. -/
def coefficient (n : Numeral) : Nat := Nat.ofDigitChars 10 (n.whole ++ n.fraction.getD []) 0

/-- The power of ten that counts them. -/
def scale (n : Numeral) : Int := exponentValue n.exponent - (n.fraction.getD []).length

/-- The number that a numeral writes. -/
def value (n : Numeral) : ℚ :=
  (if n.sign = some .minus then -1 else 1) * n.coefficient * (10 : ℚ) ^ n.scale

/-- The double of a numeral, with its sign on nought too. -/
def double (n : Numeral) : Float :=
  let x := Float.ofScientific n.coefficient (decide (n.scale < 0)) n.scale.natAbs
  if n.sign = some .minus then -x else x

def decimal (n : Numeral) : Decimal := ⟨n.sign = some .minus, n.coefficient, n.scale⟩

theorem toFloat_decimal (n : Numeral) : n.decimal.toFloat = n.double := by
  simp only [Decimal.toFloat_eq, decimal, double, decide_eq_true_eq]

/-- The double is the nearest one to the number. -/
theorem isNearest_double (n : Numeral) : IsNearest n.double n.value := by
  have hvalue : n.decimal.value = n.value := by
    simp only [Decimal.value, decimal, value, decide_eq_true_eq]
  have hnearest := n.decimal.isNearest_toFloat
  rwa [toFloat_decimal, hvalue] at hnearest

end Numeral

/-! ### Texts of the pattern -/

namespace Pattern

variable {cs : List Char}

theorem mem_oneOf {ds : List Char} : cs ∈ (oneOf ds).matches' ↔ ∃ d ∈ ds, cs = [d] := by
  induction ds with
  | nil => exact iff_of_false (Set.notMem_empty cs) (by simp)
  | cons d ds ih =>
    have hsplit : cs ∈ (oneOf (d :: ds)).matches' ↔ cs = [d] ∨ cs ∈ (oneOf ds).matches' := Iff.rfl
    rw [hsplit, ih, List.exists_mem_cons_iff]

theorem mem_optional {p : RegularExpression Char} :
    cs ∈ (optional p).matches' ↔ cs = [] ∨ cs ∈ p.matches' := Iff.rfl

theorem mem_mul {p q : RegularExpression Char} :
    cs ∈ (p * q).matches' ↔ ∃ front ∈ p.matches', ∃ back ∈ q.matches', front ++ back = cs :=
  Language.mem_mul

theorem isAsciiDigit_iff {c : Char} :
    isAsciiDigit c = true ↔ c ∈ ['0', '1', '2', '3', '4', '5', '6', '7', '8', '9'] := by
  have hall : ∀ n : Fin 10, Char.ofNat (48 + n) ∈
      ['0', '1', '2', '3', '4', '5', '6', '7', '8', '9'] := by decide
  constructor
  · intro h
    simp only [isAsciiDigit, Bool.and_eq_true, decide_eq_true_eq] at h
    have hc := hall ⟨c.toNat - 48, by omega⟩
    rwa [Nat.add_sub_cancel' h.1, Char.ofNat_toNat] at hc
  · have hdigits : ['0', '1', '2', '3', '4', '5', '6', '7', '8', '9'].all isAsciiDigit = true := by
      decide
    exact List.all_eq_true.mp hdigits c

theorem mem_digit : cs ∈ digit.matches' ↔ ∃ c, isAsciiDigit c = true ∧ cs = [c] := by
  simp only [digit, mem_oneOf, isAsciiDigit_iff]

theorem mem_digit_star : cs ∈ digit.star.matches' ↔ ∀ c ∈ cs, isAsciiDigit c = true := by
  constructor
  · rintro ⟨words, rfl, hwords⟩ c hc
    obtain ⟨word, hword, hc⟩ := List.mem_flatten.mp hc
    obtain ⟨d, hd, rfl⟩ := mem_digit.mp (hwords word hword)
    rwa [List.mem_singleton.mp hc]
  · intro h
    refine ⟨cs.map fun c => [c], (List.flatMap_singleton' cs).symm, fun word hword => ?_⟩
    obtain ⟨c, hc, rfl⟩ := List.mem_map.mp hword
    exact mem_digit.mpr ⟨c, h c hc, rfl⟩

theorem mem_digits : cs ∈ digits.matches' ↔ cs ≠ [] ∧ ∀ c ∈ cs, isAsciiDigit c = true := by
  unfold digits
  rw [mem_mul]
  constructor
  · rintro ⟨front, hfront, back, hback, rfl⟩
    obtain ⟨c, hc, rfl⟩ := mem_digit.mp hfront
    exact ⟨List.cons_ne_nil _ _, List.forall_mem_cons.mpr ⟨hc, mem_digit_star.mp hback⟩⟩
  · rintro ⟨hne, h⟩
    cases cs with
    | nil => exact absurd rfl hne
    | cons c rest =>
      obtain ⟨hc, hrest⟩ := List.forall_mem_cons.mp h
      exact ⟨[c], mem_digit.mpr ⟨c, hc, rfl⟩, rest, mem_digit_star.mpr hrest, rfl⟩

theorem mem_sign : cs ∈ (optional sign).matches' ↔ ∃ s, signSpelling s = cs := by
  rw [mem_optional, sign, mem_oneOf]
  constructor
  · rintro (rfl | ⟨c, hc, rfl⟩)
    · exact ⟨none, rfl⟩
    · rcases List.mem_pair.mp hc with rfl | rfl
      · exact ⟨some .plus, rfl⟩
      · exact ⟨some .minus, rfl⟩
  · rintro ⟨_ | _ | _, rfl⟩
    · exact .inl rfl
    · exact .inr ⟨'+', by simp, rfl⟩
    · exact .inr ⟨'-', by simp, rfl⟩

theorem mem_exponent : cs ∈ (optional exponent).matches' ↔ ∃ e, exponentSpelling e = cs := by
  rw [mem_optional, exponent, mem_mul]
  constructor
  · rintro (rfl | ⟨front, hfront, ds, hds, rfl⟩)
    · exact ⟨none, rfl⟩
    · obtain ⟨letter, hletter, signs, hsigns, rfl⟩ := mem_mul.mp hfront
      obtain ⟨c, hc, rfl⟩ := mem_oneOf.mp hletter
      obtain ⟨s, rfl⟩ := mem_sign.mp hsigns
      obtain ⟨hne, hdigits⟩ := mem_digits.mp hds
      exact ⟨some ⟨c, s, ds, List.mem_pair.mp hc, hne, hdigits⟩, rfl⟩
  · rintro ⟨_ | e, rfl⟩
    · exact .inl rfl
    · right
      have hletter : [e.letter] ∈ (oneOf ['e', 'E']).matches' :=
        mem_oneOf.mpr ⟨e.letter, List.mem_pair.mpr e.isLetter, rfl⟩
      have hsign : signSpelling e.sign ∈ (optional sign).matches' := mem_sign.mpr ⟨e.sign, rfl⟩
      exact ⟨_, mem_mul.mpr ⟨_, hletter, _, hsign, rfl⟩, e.digits,
        mem_digits.mpr ⟨e.nonempty, e.isDigit⟩, rfl⟩

theorem mem_mantissa : cs ∈ mantissa.matches' ↔
    ∃ (whole : List Char) (fraction : Option (List Char)), whole ++ pointSpelling fraction = cs ∧
      (∀ c ∈ whole ++ fraction.getD [], isAsciiDigit c = true) ∧
      whole ++ fraction.getD [] ≠ [] := by
  have hsplit : cs ∈ mantissa.matches' ↔
      cs ∈ (digits * optional (char '.') * digit.star).matches' ∨
        cs ∈ (char '.' * digits).matches' := Iff.rfl
  rw [hsplit, mem_mul, mem_mul]
  constructor
  · rintro (⟨front, hfront, back, hback, rfl⟩ | ⟨point, hpoint, fraction, hfraction, rfl⟩)
    · obtain ⟨whole, hwhole, point, hpoint, rfl⟩ := mem_mul.mp hfront
      obtain ⟨hne, hdigits⟩ := mem_digits.mp hwhole
      have hboth : ∀ c ∈ whole ++ back, isAsciiDigit c = true :=
        List.forall_mem_append.mpr ⟨hdigits, mem_digit_star.mp hback⟩
      have hnonempty : whole ++ back ≠ [] := List.append_ne_nil_of_left_ne_nil hne back
      rcases hpoint with rfl | rfl
      · -- Without a point both runs of digits stand in front of it.
        refine ⟨whole ++ back, none, ?_, ?_⟩
        · simp only [pointSpelling, List.append_nil]
        · simpa only [Option.getD_none, List.append_nil] using And.intro hboth hnonempty
      · exact ⟨whole, some back, by simp [pointSpelling], hboth, hnonempty⟩
    · obtain rfl : point = ['.'] := hpoint
      obtain ⟨hne, hdigits⟩ := mem_digits.mp hfraction
      exact ⟨[], some fraction, rfl, hdigits, hne⟩
  · rintro ⟨whole, fraction, rfl, hdigits, hne⟩
    obtain ⟨hwhole, hfraction⟩ := List.forall_mem_append.mp hdigits
    by_cases hempty : whole = []
    · -- Only the second alternative begins with a point.
      subst hempty
      cases fraction with
      | none => exact absurd rfl hne
      | some fraction => exact .inr ⟨['.'], rfl, fraction, mem_digits.mpr ⟨hne, hfraction⟩, rfl⟩
    · left
      have hfront : whole ∈ digits.matches' := mem_digits.mpr ⟨hempty, hwhole⟩
      cases fraction with
      | none =>
        exact ⟨_, mem_mul.mpr ⟨whole, hfront, [], .inl rfl, rfl⟩, [],
          mem_digit_star.mpr hfraction, by simp [pointSpelling]⟩
      | some fraction =>
        exact ⟨_, mem_mul.mpr ⟨whole, hfront, ['.'], .inr rfl, rfl⟩, fraction,
          mem_digit_star.mpr hfraction, by simp [pointSpelling]⟩

/-- The pattern has the texts of the numerals. -/
theorem mem_numeral : cs ∈ numeral.matches' ↔ ∃ n : Numeral, n.spelling = cs := by
  rw [numeral, mem_mul]
  constructor
  · rintro ⟨front, hfront, exponent, hexponent, rfl⟩
    obtain ⟨signs, hsigns, mantissa, hmantissa, rfl⟩ := mem_mul.mp hfront
    obtain ⟨s, rfl⟩ := mem_sign.mp hsigns
    obtain ⟨whole, fraction, rfl, hdigits, hne⟩ := mem_mantissa.mp hmantissa
    obtain ⟨e, rfl⟩ := mem_exponent.mp hexponent
    refine ⟨⟨s, whole, fraction, e, hdigits, hne⟩, ?_⟩
    simp only [Numeral.spelling, List.append_assoc]
  · rintro ⟨n, rfl⟩
    have hsign : signSpelling n.sign ∈ (optional sign).matches' := mem_sign.mpr ⟨n.sign, rfl⟩
    have hmantissa : n.whole ++ pointSpelling n.fraction ∈ mantissa.matches' :=
      mem_mantissa.mpr ⟨n.whole, n.fraction, rfl, n.isDigit, n.nonempty⟩
    exact ⟨_, mem_mul.mpr ⟨_, hsign, _, hmantissa, rfl⟩, exponentSpelling n.exponent,
      mem_exponent.mpr ⟨n.exponent, rfl⟩, by simp only [Numeral.spelling, List.append_assoc]⟩

end Pattern

/-! ### The reader -/

section Reader
variable {cs rest : List Char}

/-- Where no sign stands in front, a sign that is put there is read. -/
theorem readSign_append (s : Option Sign) (h : ∀ c ∈ cs.head?, c ≠ '+' ∧ c ≠ '-') :
    readSign (signSpelling s ++ cs) = (decide (s = some .minus), cs) := by
  rcases s with _ | _ | _
  · rw [signSpelling, List.nil_append]
    unfold readSign
    split
    · exact absurd rfl (h '+' rfl).1
    · exact absurd rfl (h '-' rfl).2
    · rfl
  · rfl
  · rfl

theorem exists_sign (cs : List Char) : ∃ s : Option Sign,
    cs = signSpelling s ++ (readSign cs).2 ∧ (readSign cs).1 = decide (s = some .minus) := by
  unfold readSign
  split
  · exact ⟨some .plus, rfl, rfl⟩
  · exact ⟨some .minus, rfl, rfl⟩
  · exact ⟨none, rfl, rfl⟩

theorem not_sign_of_isAsciiDigit {c : Char} (h : isAsciiDigit c = true) : c ≠ '+' ∧ c ≠ '-' := by
  constructor
  · rintro rfl
    cases h
  · rintro rfl
    cases h

/-- The reader of exponents takes the exponents that can be written. -/
theorem readExponent_eq_some_iff {x : Int} :
    readExponent cs = some x ↔ ∃ e, exponentSpelling e = cs ∧ exponentValue e = x := by
  constructor
  · intro h
    cases cs with
    | nil => exact ⟨none, rfl, Option.some.inj h⟩
    | cons c rest =>
      obtain ⟨s, hrest, hs⟩ := exists_sign rest
      simp only [readExponent, hs, decide_eq_true_eq] at h
      split at h
      · rename_i hletter
        split at h
        · cases h
        · rename_i hdigits
          simp only [Bool.or_eq_true, beq_iff_eq] at hletter
          simp only [Bool.or_eq_true, List.isEmpty_iff, Bool.not_eq_true', not_or,
            Bool.not_eq_false, List.all_eq_true] at hdigits
          rw [digitsValue_eq] at h
          refine ⟨some ⟨c, s, _, hletter, hdigits.1, hdigits.2⟩, ?_, Option.some.inj h⟩
          exact congrArg (c :: ·) hrest.symm
      · cases h
  · rintro ⟨_ | e, rfl, rfl⟩
    · rfl
    · have hletter : (e.letter == 'e' || e.letter == 'E') = true := by simpa using e.isLetter
      have hsign := readSign_append e.sign fun c hc =>
        not_sign_of_isAsciiDigit (e.isDigit c (List.mem_of_mem_head? hc))
      have hdigits : (e.digits.isEmpty || !e.digits.all isAsciiDigit) = false := by
        simpa [e.nonempty] using e.isDigit
      simp only [exponentSpelling, readExponent, hletter, hsign, hdigits, if_true,
        Bool.false_eq_true, if_false, decide_eq_true_eq, exponentValue, signed, digitsValue_eq]

theorem readMantissa_append {whole : List Char} {fraction : Option (List Char)}
    (hdigits : ∀ c ∈ whole ++ fraction.getD [], isAsciiDigit c = true)
    (hne : whole ++ fraction.getD [] ≠ []) (hrest : ∀ c ∈ rest.head?, isNumeral c = false) :
    readMantissa (whole ++ (pointSpelling fraction ++ rest)) =
      some (⟨whole, fraction.getD []⟩, rest) := by
  obtain ⟨hwhole, hfraction⟩ := List.forall_mem_append.mp hdigits
  cases fraction with
  | none =>
    simp only [Option.getD_none, List.append_nil] at hne
    exact (readMantissa_of_digits hwhole hrest).trans (if_neg hne)
  | some fraction =>
    have hstop : ∀ c ∈ rest.head?, isAsciiDigit c = false := by
      intro c hc
      have hnumeral := hrest c hc
      exact (Bool.or_eq_false_iff.mp hnumeral).1
    have hnone : ¬ (whole = [] ∧ fraction = []) := by simpa using hne
    exact (readMantissa_of_point hwhole hfraction hstop).trans (if_neg hnone)

theorem exists_mantissa {m : Mantissa} (h : readMantissa cs = some (m, rest)) :
    ∃ fraction : Option (List Char), cs = m.whole ++ (pointSpelling fraction ++ rest) ∧
      m.fraction = fraction.getD [] ∧
      (∀ c ∈ m.whole ++ m.fraction, isAsciiDigit c = true) ∧ m.whole ++ m.fraction ≠ [] := by
  have hwhole : ∀ c ∈ cs.takeWhile isAsciiDigit, isAsciiDigit c = true :=
    fun c hc => List.mem_takeWhile_imp hc
  have hsplit := List.takeWhile_append_dropWhile (p := isAsciiDigit) (l := cs)
  unfold readMantissa at h
  dsimp only at h
  split at h
  · rename_i behind hpoint
    split at h
    · cases h
    · rename_i hne
      cases h
      refine ⟨some (behind.takeWhile isAsciiDigit), ?_, rfl, ?_, by simpa using hne⟩
      · rw [pointSpelling, List.cons_append, List.takeWhile_append_dropWhile, ← hpoint, hsplit]
      · exact List.forall_mem_append.mpr ⟨hwhole, fun c hc => List.mem_takeWhile_imp hc⟩
  · split at h
    · cases h
    · rename_i hne
      cases h
      refine ⟨none, hsplit.symm, rfl, ?_, by simpa using hne⟩
      simpa only [List.append_nil] using hwhole

theorem head?_exponentSpelling (e : Option Exponent) :
    ∀ c ∈ (exponentSpelling e).head?, isNumeral c = false := by
  rcases e with _ | e
  · rintro c ⟨⟩
  · rintro c ⟨⟩
    rcases e.isLetter with h | h
    · rw [h]
      decide
    · rw [h]
      decide

theorem Numeral.head?_ne_sign (n : Numeral) :
    ∀ c ∈ (n.whole ++ (pointSpelling n.fraction ++ exponentSpelling n.exponent)).head?,
      c ≠ '+' ∧ c ≠ '-' := by
  obtain ⟨sign, whole, fraction, exponent, hdigits, hne⟩ := n
  intro c hc
  cases whole with
  | cons d whole =>
    cases hc
    exact not_sign_of_isAsciiDigit (hdigits c List.mem_cons_self)
  | nil =>
    cases fraction with
    | none => exact absurd rfl hne
    | some fraction =>
      cases hc
      decide

/-- The reader reads the numerals, each as the decimal it writes, and no other texts. -/
theorem readNumeral_eq_some_iff {d : Decimal} :
    readNumeral cs = some d ↔ ∃ n : Numeral, n.spelling = cs ∧ n.decimal = d := by
  constructor
  · intro h
    obtain ⟨s, hcs, hs⟩ := exists_sign cs
    unfold readNumeral at h
    dsimp only at h
    split at h
    · cases h
    · rename_i m rest hmantissa
      obtain ⟨fraction, hbody, hfraction, hdigits, hne⟩ := exists_mantissa hmantissa
      obtain ⟨x, hexponent, rfl⟩ := Option.map_eq_some_iff.mp h
      obtain ⟨e, rfl, rfl⟩ := readExponent_eq_some_iff.mp hexponent
      rw [hfraction] at hdigits hne
      refine ⟨⟨s, m.whole, fraction, e, hdigits, hne⟩, ?_, ?_⟩
      · exact (hcs.trans (congrArg (signSpelling s ++ ·) hbody)).symm
      · simp only [Numeral.decimal, Numeral.coefficient, Numeral.scale, Mantissa.coefficient,
          digitsValue_eq, hfraction, hs]
  · rintro ⟨n, rfl, rfl⟩
    have hsign := readSign_append n.sign n.head?_ne_sign
    have hmantissa := readMantissa_append n.isDigit n.nonempty (head?_exponentSpelling n.exponent)
    have hexponent := readExponent_eq_some_iff.mpr ⟨n.exponent, rfl, rfl⟩
    simp only [readNumeral, Numeral.spelling, hsign, hmantissa, hexponent, Option.map_some,
      Mantissa.coefficient, digitsValue_eq, Numeral.decimal, Numeral.coefficient, Numeral.scale]

/-- The characters of numerals. -/
def numeralCharacters : List Char :=
  ['0', '1', '2', '3', '4', '5', '6', '7', '8', '9', '.', '+', '-', 'e', 'E']

theorem mem_signSpelling {s : Option Sign} : ∀ c ∈ signSpelling s, c ∈ numeralCharacters := by
  rcases s with _ | _ | _
  · exact List.forall_mem_nil _
  · exact List.forall_mem_singleton.mpr (by decide)
  · exact List.forall_mem_singleton.mpr (by decide)

theorem Numeral.mem_spelling (n : Numeral) : ∀ c ∈ n.spelling, c ∈ numeralCharacters := by
  have hdigit {c : Char} (h : isAsciiDigit c = true) : c ∈ numeralCharacters :=
    List.mem_append_left ['.', '+', '-', 'e', 'E'] (Pattern.isAsciiDigit_iff.mp h)
  obtain ⟨hwhole, hfraction⟩ := List.forall_mem_append.mp n.isDigit
  refine List.forall_mem_append.mpr ⟨mem_signSpelling, ?_⟩
  refine List.forall_mem_append.mpr ⟨fun c hc => hdigit (hwhole c hc), ?_⟩
  refine List.forall_mem_append.mpr ⟨?_, ?_⟩
  · cases hpoint : n.fraction with
    | none => exact List.forall_mem_nil _
    | some fraction =>
      rw [hpoint] at hfraction
      exact List.forall_mem_cons.mpr ⟨by decide, fun c hc => hdigit (hfraction c hc)⟩
  · cases n.exponent with
    | none => exact List.forall_mem_nil _
    | some e =>
      have hletter : e.letter ∈ numeralCharacters := by
        rcases e.isLetter with h | h
        · rw [h]
          decide
        · rw [h]
          decide
      refine List.forall_mem_cons.mpr ⟨hletter, ?_⟩
      exact List.forall_mem_append.mpr ⟨mem_signSpelling, fun c hc => hdigit (e.isDigit c hc)⟩

/-- The texts of the pattern are those that the reader takes. -/
theorem mem_pattern_iff : cs ∈ Pattern.numeral.matches' ↔ (readNumeral cs).isSome = true := by
  rw [Pattern.mem_numeral, Option.isSome_iff_exists]
  constructor
  · rintro ⟨n, hn⟩
    exact ⟨n.decimal, readNumeral_eq_some_iff.mpr ⟨n, hn, rfl⟩⟩
  · rintro ⟨d, hd⟩
    obtain ⟨n, hn, -⟩ := readNumeral_eq_some_iff.mp hd
    exact ⟨n, hn⟩

example : ".5E-1".toList ∈ Pattern.numeral.matches' := mem_pattern_iff.mpr (by decide +kernel)

end Reader

end Worksheet.Number
