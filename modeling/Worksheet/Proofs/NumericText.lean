import Worksheet.Display.Basic
import Worksheet.Formula.Evaluation
import Worksheet.Number.Conversion
import Worksheet.Proofs.Lexemes
import Worksheet.Proofs.NumeralPattern
import Worksheet.Proofs.ParsedTrees

/-!
Numeric text is read in three places: by the lexer in a formula, by arithmetic and aggregates in a
cell, and by the formats for numbers. All three take the texts of one pattern, with blanks around
them or not, and make the same double of them, the nearest one to the number that the numeral
writes; the lexer leaves out the texts with a sign or an exponent, the other two those whose number
is out of range.
-/
namespace Worksheet

open Text Number Formula Display

/-- A text of the pattern of numerals, and the double to which text is converted in general. -/
def Writes (cs : List Char) (x : Float) : Prop :=
  cs ∈ Pattern.numeral.matches' ∧ (Value.text (String.ofList cs)).toDouble = .ok x

/-- Text with neither a sign nor an exponent. -/
def Unadorned (cs : List Char) : Prop := ∀ c ∈ cs, c ∉ ['+', '-', 'e', 'E']

/-- The readers of numeric text agree about a text. -/
structure ReadAlike (t : String) : Prop where
  /-- The double is that of the sign, the digits and the exponent of the numeral. -/
  value : ∀ x, Writes (trim t.toList) x ↔
    ∃ n : Numeral, n.spelling = trim t.toList ∧ n.double = x
  /-- No double is nearer to the number that the numeral writes. -/
  nearest : ∀ x, Writes (trim t.toList) x →
    ∃ n : Numeral, n.spelling = trim t.toList ∧ IsNearest x n.value
  /-- One number token is the text of an unsigned numeral without an exponent. -/
  token : ∀ v, tokenize t = .ok [.number v] ↔
    Writes (trim t.toList) v ∧ Unadorned (trim t.toList)
  /-- The number of a cell is that of the token. -/
  ofToken : ∀ v, tokenize t = .ok [.number v] → v.isFinite = true →
    (Value.text t).toNumber = .ok (.float v)
  /-- Text is numeric when it writes a finite double. -/
  numeric : (Value.text t).isNumeric = .ok true ↔
    ∃ x, Writes (trim t.toList) x ∧ x.isFinite = true
  /-- So it is numeric when the number it writes is in the range of doubles. -/
  inRange : (Value.text t).isNumeric = .ok true ↔
    ∃ n : Numeral, n.spelling = trim t.toList ∧ |n.value| < doubleBound
  /-- Text that is numeric counts as its number in arithmetic and among the values of an
  aggregate. -/
  counted : ∀ x, Writes (trim t.toList) x → x.isFinite = true →
    (Value.text t).toNumber = .ok (.float x) ∧
    ∀ before behind, numbersAmong (before ++ .text t :: behind) =
      numbersAmong (before ++ .float x :: behind)
  /-- Other text is nought in arithmetic, and no number for an aggregate. -/
  passed : (Value.text t).isNumeric ≠ .ok true →
    (Value.text t).isNumeric = .ok false ∧ (Value.text t).toNumber = .ok (.int 0) ∧
    ∀ before behind, numbersAmong (before ++ .text t :: behind) = numbersAmong (before ++ behind)
  /-- A format shows the number that arithmetic sees. -/
  shown : ',' ∉ t.toList →
    (Value.text t).isNumeric = .ok true ∨ allBlank t.toList = true →
    ∃ n, (Value.text t).toNumber = .ok n ∧ numberOf (.text t) = .ok (some n)
  /-- What is neither numeric nor blank has no number to be shown. -/
  unshown : ',' ∉ t.toList →
    ¬ ((Value.text t).isNumeric = .ok true ∨ allBlank t.toList = true) →
    numberOf (.text t) = .ok none

/-! ### The conversion -/

section Conversion
variable {cs : List Char} {x : Float} {d : Decimal}

/-- The characters of numerals are none of those that readers drop or replace. -/
theorem of_mem_numeralCharacters {c : Char} (h : c ∈ numeralCharacters) :
    isBlank c = false ∧ plainDigit c = c ∧ c ≠ '_' ∧
      (c ∉ ['+', '-', 'e', 'E'] ↔ isNumeral c = true) := by
  have hall : numeralCharacters.all (fun c => isBlank c = false ∧ plainDigit c = c ∧ c ≠ '_' ∧
      (c ∉ ['+', '-', 'e', 'E'] ↔ isNumeral c = true)) = true := by decide +kernel
  exact of_decide_eq_true (List.all_eq_true.mp hall c h)

theorem mem_numeralCharacters (h : readNumeral cs = some d) : ∀ c ∈ cs, c ∈ numeralCharacters := by
  obtain ⟨n, rfl, -⟩ := readNumeral_eq_some_iff.mp h
  exact n.mem_spelling

theorem joinDigits_of_not_mem (h : ∀ c ∈ cs, c ≠ '_') (afterDigit : Bool) :
    joinDigits afterDigit cs = some cs := by
  induction cs generalizing afterDigit with
  | nil => rfl
  | cons c rest ih =>
    obtain ⟨hc, hrest⟩ := List.forall_mem_cons.mp h
    simp only [joinDigits, beq_iff_eq, hc, if_false, ih hrest, Option.map_some]

/-- Conversion in general makes the double of a numeral that its reader makes. -/
theorem toDouble_of_readNumeral (h : readNumeral cs = some d) :
    (Value.text (String.ofList cs)).toDouble = .ok d.toFloat := by
  have hmem := fun c hc => of_mem_numeralCharacters (mem_numeralCharacters h c hc)
  have hspace : ∀ c ∈ cs, ¬ isSpace c = true := by
    intro c hc
    unfold isSpace
    rw [(hmem c hc).1, Bool.false_and]
    exact Bool.false_ne_true
  have hreverse : ∀ c ∈ cs.reverse, ¬ isSpace c = true :=
    fun c hc => hspace c (List.mem_reverse.mp hc)
  have htrim : trimSpace cs = cs := by
    unfold trimSpace
    rw [List.dropWhile_eq_self_iff.mpr fun _ => hspace _ (List.getElem_mem _),
      List.dropWhile_eq_self_iff.mpr fun _ => hreverse _ (List.getElem_mem _),
      List.reverse_reverse]
  have hplain : cs.map plainDigit = cs :=
    (List.map_congr_left fun c hc => (hmem c hc).2.1).trans (List.map_id' cs)
  have hjoin := joinDigits_of_not_mem (fun c hc => (hmem c hc).2.2.1) false
  have htext : plainText (String.ofList cs) = some cs := by
    unfold plainText
    rw [String.toList_ofList, htrim, hplain, hjoin]
  simp only [Value.toDouble, doubleOfText, htext, Option.bind_eq_bind, Option.bind_some, h]

theorem writes_iff : Writes cs x ↔ ∃ d, readNumeral cs = some d ∧ d.toFloat = x := by
  unfold Writes
  rw [mem_pattern_iff, Option.isSome_iff_exists]
  constructor
  · rintro ⟨⟨d, hd⟩, hx⟩
    rw [toDouble_of_readNumeral hd] at hx
    exact ⟨d, hd, Except.ok.inj hx⟩
  · rintro ⟨d, hd, rfl⟩
    exact ⟨⟨d, hd⟩, toDouble_of_readNumeral hd⟩

theorem writes_iff_spelling :
    Writes cs x ↔ ∃ n : Numeral, n.spelling = cs ∧ n.double = x := by
  rw [writes_iff]
  constructor
  · rintro ⟨d, hd, rfl⟩
    obtain ⟨n, hn, rfl⟩ := readNumeral_eq_some_iff.mp hd
    exact ⟨n, hn, n.toFloat_decimal.symm⟩
  · rintro ⟨n, hn, rfl⟩
    exact ⟨n.decimal, readNumeral_eq_some_iff.mpr ⟨n, hn, rfl⟩, n.toFloat_decimal⟩

/-- A numeral writes a finite double when its number is in range. -/
theorem exists_finite_iff : (∃ x, Writes cs x ∧ x.isFinite = true) ↔
    ∃ n : Numeral, n.spelling = cs ∧ |n.value| < doubleBound := by
  constructor
  · rintro ⟨x, hx, hfinite⟩
    obtain ⟨n, hn, rfl⟩ := writes_iff_spelling.mp hx
    exact ⟨n, hn, n.isNearest_double.isFinite_iff.mp hfinite⟩
  · rintro ⟨n, hn, hrange⟩
    exact ⟨n.double, writes_iff_spelling.mpr ⟨n, hn, rfl⟩,
      n.isNearest_double.isFinite_iff.mpr hrange⟩

theorem readFinite_eq_some_iff : readFinite cs = some x ↔ Writes cs x ∧ x.isFinite = true := by
  rw [writes_iff]
  unfold readFinite
  cases hd : readNumeral cs with
  | none => simp
  | some d =>
    simp only [Option.ite_none_right_eq_some, Option.some.injEq, exists_eq_left']
    constructor
    · rintro ⟨hfinite, rfl⟩
      exact ⟨rfl, hfinite⟩
    · rintro ⟨rfl, hfinite⟩
      exact ⟨hfinite, rfl⟩

end Conversion

/-! ### The lexer -/

namespace Formula

section Lexer
variable {c : Char} {cs rest remaining front run behind : List Char} {v : Float}

theorem numberToken_eq_ok_iff :
    numberToken run = .ok (.number v) ↔ ∃ d, readNumeral run = some d ∧ d.toFloat = v := by
  unfold numberToken
  cases readNumeral run with
  | none => simp
  | some d => simp [Token.number]

theorem lexeme_eq_number (h : lexeme c rest = .ok (.number v, remaining)) :
    isNumeral c = true ∧ numberToken (c :: rest.takeWhile isNumeral) = .ok (.number v) ∧
      remaining = rest.dropWhile isNumeral := by
  unfold lexeme at h
  split at h
  · rename_i hc
    cases htoken : numberToken (c :: rest.takeWhile isNumeral) with
    | error f =>
      rw [htoken] at h
      cases h
    | ok t =>
      rw [htoken] at h
      cases h
      exact ⟨hc, rfl, rfl⟩
  · split at h
    · -- The token of letters is no number.
      dsimp only [nameToken] at h
      split at h
      · cases h
      · cases h
    · split at h
      · cases h
      · split at h
        · cases h
        · cases h

theorem tokens_eq_nil_iff : tokens cs = .ok [] ↔ ∀ c ∈ cs, isBlank c = true := by
  induction cs with
  | nil => simp [tokens_nil]
  | cons c rest ih =>
    rw [tokens_cons, List.forall_mem_cons]
    by_cases hc : isBlank c = true
    · rw [if_pos hc, ih]
      exact (and_iff_right hc).symm
    · rw [if_neg hc]
      refine iff_of_false (fun h => ?_) fun h => hc h.1
      obtain ⟨taken, -, hmap⟩ := bind_eq_ok.mp h
      obtain ⟨ts, -, heq⟩ := map_eq_ok.mp hmap
      cases heq

theorem tokens_blanks_append (h : ∀ c ∈ front, isBlank c = true) :
    tokens (front ++ cs) = tokens cs := by
  induction front with
  | nil => rfl
  | cons c front ih =>
    obtain ⟨hc, hfront⟩ := List.forall_mem_cons.mp h
    rw [List.cons_append, tokens_cons, if_pos hc, ih hfront]

/-- One number is read where blanks stand around a run of digits and points. -/
theorem tokens_eq_number_iff :
    tokens cs = .ok [.number v] ↔ ∃ front run behind, cs = front ++ (run ++ behind) ∧
      (∀ c ∈ front, isBlank c = true) ∧ (∀ c ∈ run, isNumeral c = true) ∧
      (∀ c ∈ behind, isBlank c = true) ∧ numberToken run = .ok (.number v) := by
  constructor
  · intro h
    induction cs with
    | nil =>
      rw [tokens_nil] at h
      cases h
    | cons c rest ih =>
      rw [tokens_cons] at h
      by_cases hc : isBlank c = true
      · rw [if_pos hc] at h
        obtain ⟨front, run, behind, rfl, hfront, hrun, hbehind, hnumber⟩ := ih h
        exact ⟨c :: front, run, behind, rfl, List.forall_mem_cons.mpr ⟨hc, hfront⟩, hrun, hbehind,
          hnumber⟩
      · rw [if_neg hc] at h
        obtain ⟨⟨t, remaining⟩, hlexeme, hmap⟩ := bind_eq_ok.mp h
        obtain ⟨ts, hts, heq⟩ := map_eq_ok.mp hmap
        -- Behind the number no token is left, so nothing but blanks.
        cases heq
        obtain ⟨hnumeral, hnumber, rfl⟩ := lexeme_eq_number hlexeme
        refine ⟨[], c :: rest.takeWhile isNumeral, rest.dropWhile isNumeral, ?_,
          List.forall_mem_nil _, ?_, tokens_eq_nil_iff.mp hts, hnumber⟩
        · rw [List.nil_append, List.cons_append, List.takeWhile_append_dropWhile]
        · exact List.forall_mem_cons.mpr ⟨hnumeral, fun d hd => List.mem_takeWhile_imp hd⟩
  · rintro ⟨front, run, behind, rfl, hfront, hrun, hbehind, hnumber⟩
    -- A blank ends the run, so the lexer takes all of it and no more.
    have hstop : ∀ c ∈ behind.head?, isNumeral c = false := by
      intro c hc
      by_contra hnumeral
      have hblank := not_isBlank_of_isNumeral (by simpa using hnumeral)
      rw [hbehind c (List.mem_of_mem_head? hc)] at hblank
      cases hblank
    cases run with
    | nil => cases hnumber
    | cons c more =>
      obtain ⟨hc, hmore⟩ := List.forall_mem_cons.mp hrun
      obtain ⟨htake, hdrop⟩ := takeWhile_dropWhile_append hmore hstop
      rw [tokens_blanks_append hfront, List.cons_append, tokens_cons, not_isBlank_of_isNumeral hc]
      simp only [lexeme, hc, if_true, htake, hdrop, hnumber, Bool.false_eq_true, if_false,
        Except.map, Except.bind, tokens_eq_nil_iff.mpr hbehind]

/-- The lexer reads one number where the text without the blanks around it is one. -/
theorem tokenize_eq_number_iff {t : String} : tokenize t = .ok [.number v] ↔
    (∀ c ∈ trim t.toList, isNumeral c = true) ∧ numberToken (trim t.toList) = .ok (.number v) := by
  unfold tokenize
  rw [tokens_eq_number_iff]
  constructor
  · rintro ⟨front, run, behind, hcs, hfront, hrun, hbehind, hnumber⟩
    have htrim : trim t.toList = run := by
      rw [hcs]
      exact trim_append hfront
        (fun c hc => not_isBlank_of_isNumeral (hrun c (List.mem_of_mem_head? hc)))
        (fun c hc => not_isBlank_of_isNumeral (hrun c (List.mem_of_getLast? hc))) hbehind
    rw [htrim]
    exact ⟨hrun, hnumber⟩
  · rintro ⟨hrun, hnumber⟩
    obtain ⟨front, behind, hcs, hfront, hbehind⟩ := exists_trim t.toList
    exact ⟨front, trim t.toList, behind, hcs, hfront, hrun, hbehind, hnumber⟩

/-- Of the numerals those are digits and points that have neither a sign nor an exponent. -/
theorem unadorned_iff {d : Decimal} (h : readNumeral cs = some d) :
    Unadorned cs ↔ ∀ c ∈ cs, isNumeral c = true :=
  forall₂_congr fun c hc => (of_mem_numeralCharacters (mem_numeralCharacters h c hc)).2.2.2

end Lexer

/-! ### Aggregates -/

section Aggregates
variable {v : Value} {n : Number}

theorem numbersAmong_cons_of_numeric (h : v.isNumeric = .ok true) (hn : v.toNumber = .ok n)
    (rest : List Value) : numbersAmong (v :: rest) = (numbersAmong rest).map (n :: ·) := by
  simp only [numbersAmong, h, hn]
  cases numbersAmong rest with
  | error f => rfl
  | ok ns => rfl

theorem numbersAmong_cons_of_not_numeric (h : v.isNumeric = .ok false) (rest : List Value) :
    numbersAmong (v :: rest) = numbersAmong rest := by
  simp only [numbersAmong, h]
  cases numbersAmong rest with
  | error f => rfl
  | ok ns => rfl

/-- What an aggregate makes of later values it makes of them behind any others. -/
theorem numbersAmong_append_congr {vs ws : List Value} (h : numbersAmong vs = numbersAmong ws)
    (before : List Value) : numbersAmong (before ++ vs) = numbersAmong (before ++ ws) := by
  induction before with
  | nil => exact h
  | cons v before ih => simp only [List.cons_append, numbersAmong, ih]

end Aggregates

end Formula

/-! ### Formats -/

namespace Display

theorem commaAsPoint_of_not_mem {cs : List Char} (h : ',' ∉ cs) : commaAsPoint cs = cs := by
  induction cs with
  | nil => rfl
  | cons c rest ih =>
    obtain ⟨hc, hrest⟩ := not_or.mp fun hmem => h (List.mem_cons.mpr hmem)
    have hcomma : ¬ (c == ',') = true := by simpa using Ne.symm hc
    rw [commaAsPoint, if_neg hcomma, ih hrest]

/-- Without a comma, a text that is not blank is shown as the number that arithmetic sees. -/
theorem numberOf_text {t : String} (h : ',' ∉ t.toList) : numberOf (.text t) =
    .ok (if trim t.toList = [] then some (.int 0)
      else (readFinite (trim t.toList)).map .float) := by
  have htrim : ',' ∉ trim t.toList := fun hmem => h ((isInfix_trim t.toList).subset hmem)
  show Except.ok (textNumber t.toList) = _
  simp only [textNumber, commaAsPoint_of_not_mem htrim, List.isEmpty_iff]

end Display

/-! ### The readers -/

section Readers
variable {t : String} {x : Float}

theorem toNumber_text (t : String) :
    (Value.text t).toNumber = .ok (((readFinite (trim t.toList)).map .float).getD (.int 0)) := by
  simp only [Value.toNumber]
  cases readFinite (trim t.toList) with
  | none => rfl
  | some x => rfl

theorem isNumeric_text_iff : (Value.text t).isNumeric = .ok true ↔
    ∃ x, readFinite (trim t.toList) = some x := by
  simp only [Value.isNumeric, Except.ok.injEq, Option.isSome_iff_exists]

theorem readFinite_eq_none (h : (Value.text t).isNumeric ≠ .ok true) :
    readFinite (trim t.toList) = none := by
  by_contra hne
  obtain ⟨x, hx⟩ := Option.ne_none_iff_exists'.mp hne
  exact h (isNumeric_text_iff.mpr ⟨x, hx⟩)

/-- Every text is read alike by the lexer, by arithmetic and aggregates, and by the formats. -/
theorem readers_agree (t : String) : ReadAlike t where
  value x := writes_iff_spelling
  nearest x hx := by
    obtain ⟨n, hn, rfl⟩ := writes_iff_spelling.mp hx
    exact ⟨n, hn, n.isNearest_double⟩
  token v := by
    rw [tokenize_eq_number_iff, numberToken_eq_ok_iff, writes_iff, and_comm]
    exact and_congr_right fun ⟨d, hd, _⟩ => (unadorned_iff hd).symm
  ofToken v hv hfinite := by
    have hwrites : Writes (trim t.toList) v :=
      writes_iff.mpr (numberToken_eq_ok_iff.mp (tokenize_eq_number_iff.mp hv).2)
    rw [toNumber_text, readFinite_eq_some_iff.mpr ⟨hwrites, hfinite⟩]
    rfl
  numeric := by
    rw [isNumeric_text_iff]
    exact exists_congr fun x => readFinite_eq_some_iff
  inRange := by
    rw [isNumeric_text_iff, ← exists_finite_iff]
    exact exists_congr fun x => readFinite_eq_some_iff
  counted x hx hfinite := by
    have hread := readFinite_eq_some_iff.mpr ⟨hx, hfinite⟩
    have hnumber : (Value.text t).toNumber = .ok (.float x) := by
      rw [toNumber_text, hread]
      rfl
    refine ⟨hnumber, fun before behind => numbersAmong_append_congr ?_ before⟩
    have hfloat : (Value.float x).isNumeric = .ok true := congrArg Except.ok hfinite
    rw [numbersAmong_cons_of_numeric (isNumeric_text_iff.mpr ⟨x, hread⟩) hnumber,
      numbersAmong_cons_of_numeric hfloat rfl]
  passed h := by
    have hread := readFinite_eq_none h
    have hnumeric : (Value.text t).isNumeric = .ok false := by
      simp only [Value.isNumeric, hread, Option.isSome_none]
    refine ⟨hnumeric, ?_, fun before behind => numbersAmong_append_congr ?_ before⟩
    · rw [toNumber_text, hread]
      rfl
    · exact numbersAmong_cons_of_not_numeric hnumeric behind
  shown hcomma h := by
    refine ⟨_, toNumber_text t, ?_⟩
    rw [numberOf_text hcomma]
    by_cases hempty : trim t.toList = []
    · rw [if_pos hempty, hempty]
      rfl
    · rw [if_neg hempty]
      have hnumeric := h.resolve_right fun hblank => hempty (allBlank_iff.mp hblank)
      obtain ⟨x, hx⟩ := isNumeric_text_iff.mp hnumeric
      rw [hx]
      rfl
  unshown hcomma h := by
    obtain ⟨hnumeric, hblank⟩ := not_or.mp h
    rw [numberOf_text hcomma, if_neg fun hempty => hblank (allBlank_iff.mpr hempty),
      readFinite_eq_none hnumeric]
    rfl

/-- A point may end a numeral, but no blank may stand within one; a sign and an exponent are read in
a cell only, and a number out of range is none. -/
theorem readers_agree_twelve :
    tokenize " 12. " = .ok [.number (Float.ofBits 0x4028000000000000)] ∧
      (Value.text "-1.5e1").toNumber = .ok (.float (Float.ofBits 0xC02E000000000000)) ∧
      (Value.text "1e400").isNumeric = .ok false ∧ (Value.text "1e400").toNumber = .ok (.int 0) ∧
      (Value.text "1 2").toNumber = .ok (.int 0) ∧ numberOf (.text "1 2") = .ok none := by
  have htwelve : readNumeral (trim " 12. ".toList) = some ⟨false, 12, 0⟩ := by decide +kernel
  have htwelveDouble : (⟨false, 12, 0⟩ : Decimal).toFloat = Float.ofBits 0x4028000000000000 := by
    decide +kernel
  have hrun : (trim " 12. ".toList).all isNumeral = true := by decide +kernel
  have hplain : Unadorned (trim " 12. ".toList) :=
    (unadorned_iff htwelve).mpr (List.all_eq_true.mp hrun)
  have hsigned : readNumeral (trim "-1.5e1".toList) = some ⟨true, 15, 0⟩ := by decide +kernel
  have hsignedDouble : (⟨true, 15, 0⟩ : Decimal).toFloat = Float.ofBits 0xC02E000000000000 := by
    decide +kernel
  have hlarge : readNumeral (trim "1e400".toList) = some ⟨false, 1, 400⟩ := by decide +kernel
  have hinfinite : (⟨false, 1, 400⟩ : Decimal).toFloat.isFinite = false := by decide +kernel
  have hnone : readNumeral (trim "1 2".toList) = none := by decide +kernel
  have hcomma : ',' ∉ "1 2".toList := by decide +kernel
  have hblank : ¬ allBlank "1 2".toList = true := by decide +kernel
  have hlargeNumeric : (Value.text "1e400").isNumeric ≠ .ok true := by
    rw [Ne, (readers_agree "1e400").numeric]
    rintro ⟨x, hx, hfinite⟩
    obtain ⟨d, hd, rfl⟩ := writes_iff.mp hx
    cases hlarge.symm.trans hd
    rw [hinfinite] at hfinite
    cases hfinite
  have hnumeric : (Value.text "1 2").isNumeric ≠ .ok true := by
    rw [Ne, (readers_agree "1 2").numeric]
    rintro ⟨x, hx, -⟩
    obtain ⟨d, hd, -⟩ := writes_iff.mp hx
    rw [hnone] at hd
    cases hd
  refine ⟨?_, ?_, ?_, ?_, ?_, ?_⟩
  · exact ((readers_agree " 12. ").token _).mpr
      ⟨writes_iff.mpr ⟨_, htwelve, htwelveDouble⟩, hplain⟩
  · exact ((readers_agree "-1.5e1").counted _ (writes_iff.mpr ⟨_, hsigned, hsignedDouble⟩)
      (by decide +kernel)).1
  · exact ((readers_agree "1e400").passed hlargeNumeric).1
  · exact ((readers_agree "1e400").passed hlargeNumeric).2.1
  · exact ((readers_agree "1 2").passed hnumeric).2.1
  · exact (readers_agree "1 2").unshown hcomma fun h => h.elim hnumeric hblank

end Readers

end Worksheet
