import Worksheet.Proofs.Numerals

/-!
The lexemes of a formula. A text is read from left to right as blanks and runs: digits and points,
letters and the digits behind them, or a single sign. A run is taken as long as it can be, so there
is only one way to read a text, and its tokens are settled by what a lexeme is and not by how it is
looked for. A text that is no sequence of lexemes fails at the first place where none begins.
-/
namespace Worksheet.Formula

open Text Number

/-- Text that is read in one piece, whether it is a token or not. -/
inductive Run : List Char → Prop
  | numeral {run : List Char} (hne : run ≠ []) (h : ∀ c ∈ run, isNumeral c = true) : Run run
  | name {letters digits : List Char} (hne : letters ≠ [])
      (hletters : ∀ c ∈ letters, isAsciiLetter c = true)
      (hdigits : ∀ c ∈ digits, isAsciiDigit c = true) : Run (letters ++ digits)
  | sign {c : Char} (h : isOperator c = true ∨ isPunctuation c = true) : Run [c]

/-- A run as long as it can be where `rest` follows it. -/
def Longest (run rest : List Char) : Prop :=
  Run run ∧ ∀ more, more ≠ [] → more <+: rest → ¬ Run (run ++ more)

/-- A run with its token. -/
inductive Lexeme : List Char → Token → Prop
  | number {run : List Char} (h : ∀ c ∈ run, isNumeral c = true) (hpoints : run.count '.' ≤ 1)
      (hdigit : ∃ c ∈ run, isAsciiDigit c = true) :
      Lexeme run (.number (writtenDouble run))
  | cell {letters digits : List Char} (hletters : letters ≠ [])
      (hl : ∀ c ∈ letters, isAsciiLetter c = true) (hdigits : digits ≠ [])
      (hd : ∀ c ∈ digits, isAsciiDigit c = true) :
      Lexeme (letters ++ digits) (.cell (String.ofList (letters ++ digits)))
  | identifier {letters : List Char} (hne : letters ≠ [])
      (hl : ∀ c ∈ letters, isAsciiLetter c = true) :
      Lexeme letters (.identifier (String.ofList letters))
  | operator {c : Char} (h : isOperator c = true) : Lexeme [c] (.operator c)
  | punctuation {c : Char} (h : isPunctuation c = true) : Lexeme [c] (.punctuation c)

/-- A run of digits and points that is no number. -/
structure Malformed (run : List Char) : Prop where
  isNumeral : ∀ c ∈ run, isNumeral c = true
  reason : 2 ≤ run.count '.' ∨ ∀ c ∈ run, isAsciiDigit c = false

/-- The tokens of the blanks and lexemes with which a text begins, and what follows them. -/
inductive Lexes : List Char → List Token → List Char → Prop
  | stop (cs : List Char) : Lexes cs [] cs
  | blank {c : Char} {cs rest : List Char} {ts : List Token} (hc : isBlank c = true)
      (h : Lexes cs ts rest) : Lexes (c :: cs) ts rest
  | lexeme {run cs rest : List Char} {t : Token} {ts : List Token} (ht : Lexeme run t)
      (hlongest : Longest run cs) (h : Lexes cs ts rest) : Lexes (run ++ cs) (t :: ts) rest

/-- Text at whose beginning there is neither a blank nor a lexeme, and the tag of its fault. -/
inductive Fails : List Char → String → Prop
  | number {run cs : List Char} (h : Malformed run) (hlongest : Longest run cs) :
      Fails (run ++ cs) "number"
  | invalid {c : Char} {cs : List Char} (hblank : isBlank c = false)
      (h : ∀ more t, ¬ Lexeme (c :: more) t) : Fails (c :: cs) "invalid"

/-! ### Classes of characters -/

section Classes
variable {c : Char}

theorem not_isAsciiLetter_of_isNumeral (h : isNumeral c = true) : isAsciiLetter c = false := by
  unfold isNumeral isAsciiDigit at h
  unfold isAsciiLetter isAsciiUpper isAsciiLower
  simp only [Bool.or_eq_true, beq_iff_eq, Bool.and_eq_true, decide_eq_true_eq] at h
  rcases h with h | rfl
  · simp only [Bool.or_eq_false_iff, Bool.and_eq_false_iff, decide_eq_false_iff_not]
    omega
  · decide

theorem not_isNumeral_of_isAsciiLetter (h : isAsciiLetter c = true) : isNumeral c = false := by
  by_contra hnumeral
  rw [not_isAsciiLetter_of_isNumeral (by simpa using hnumeral)] at h
  cases h

theorem not_isAsciiDigit_of_isAsciiLetter (h : isAsciiLetter c = true) :
    isAsciiDigit c = false := by
  unfold isAsciiLetter isAsciiUpper isAsciiLower at h
  unfold isAsciiDigit
  simp only [Bool.or_eq_true, Bool.and_eq_true, decide_eq_true_eq] at h
  simp only [Bool.and_eq_false_iff, decide_eq_false_iff_not]
  omega

/-- A sign is of no other class. -/
theorem of_isSign (h : isOperator c = true ∨ isPunctuation c = true) :
    isNumeral c = false ∧ isAsciiLetter c = false ∧ isBlank c = false := by
  simp only [isOperator, isPunctuation, Bool.or_eq_true, beq_iff_eq, or_assoc] at h
  rcases h with rfl | rfl | rfl | rfl | rfl | rfl | rfl | rfl <;> decide

theorem not_isBlank_of_isNumeral (h : isNumeral c = true) : isBlank c = false := by
  unfold isNumeral isAsciiDigit at h
  simp only [Bool.or_eq_true, beq_iff_eq, Bool.and_eq_true, decide_eq_true_eq] at h
  rcases h with h | rfl
  · unfold isBlank
    simp only [Bool.or_eq_false_iff, Bool.and_eq_false_iff, decide_eq_false_iff_not,
      beq_eq_false_iff_ne]
    omega
  · decide

theorem not_isBlank_of_isAsciiLetter (h : isAsciiLetter c = true) : isBlank c = false := by
  unfold isAsciiLetter isAsciiUpper isAsciiLower at h
  simp only [Bool.or_eq_true, Bool.and_eq_true, decide_eq_true_eq] at h
  unfold isBlank
  simp only [Bool.or_eq_false_iff, Bool.and_eq_false_iff, decide_eq_false_iff_not,
    beq_eq_false_iff_ne]
  omega

end Classes

/-! ### Longest runs -/

section Runs
variable {c : Char} {cs run rest run' rest' : List Char}

/-- Behind a digit in a name there are digits only. -/
theorem pairwise_name {letters digits : List Char}
    (hletters : ∀ c ∈ letters, isAsciiLetter c = true)
    (hdigits : ∀ c ∈ digits, isAsciiDigit c = true) :
    (letters ++ digits).Pairwise fun x y => isAsciiDigit x = true → isAsciiDigit y = true := by
  apply List.pairwise_append.mpr
  refine ⟨List.pairwise_of_forall_mem_list ?_, List.pairwise_of_forall_mem_list ?_, ?_⟩
  · intro x hx y _ hdigit
    rw [not_isAsciiDigit_of_isAsciiLetter (hletters x hx)] at hdigit
    cases hdigit
  · intro x _ y hy _
    exact hdigits y hy
  · intro x _ y hy _
    exact hdigits y hy

/-- The first character of a run tells of which class the run is. -/
theorem Run.of_cons (h : Run (c :: cs)) :
    (isNumeral c = true ∧ ∀ d ∈ cs, isNumeral d = true) ∨
    (isAsciiLetter c = true ∧ (∀ d ∈ cs, isAsciiLetter d = true ∨ isAsciiDigit d = true) ∧
      cs.Pairwise fun x y => isAsciiDigit x = true → isAsciiDigit y = true) ∨
    ((isOperator c = true ∨ isPunctuation c = true) ∧ cs = []) := by
  generalize hrun : c :: cs = run at h
  cases h with
  | numeral _ h =>
    subst hrun
    exact .inl ⟨h c List.mem_cons_self, fun d hd => h d (List.mem_cons_of_mem c hd)⟩
  | @name letters digits hne hletters hdigits =>
    cases letters with
    | nil => exact absurd rfl hne
    | cons first letters =>
      obtain ⟨rfl, rfl⟩ := List.cons.inj hrun
      have hpairwise := pairwise_name hletters hdigits
      refine .inr (.inl ⟨hletters c List.mem_cons_self, fun d hd => ?_, hpairwise.of_cons⟩)
      rcases List.mem_append.mp hd with hd | hd
      · exact .inl (hletters d (List.mem_cons_of_mem c hd))
      · exact .inr (hdigits d hd)
  | sign h =>
    obtain ⟨rfl, rfl⟩ := List.cons.inj hrun
    exact .inr (.inr ⟨h, rfl⟩)

theorem Run.ne_nil (h : Run run) : run ≠ [] := by
  cases h with
  | numeral hne _ => exact hne
  | name hne _ _ => exact List.append_ne_nil_of_left_ne_nil hne _
  | sign _ => exact List.cons_ne_nil _ _

/-- A run does not begin with a blank. -/
theorem Run.not_isBlank (h : Run (c :: cs)) : isBlank c = false := by
  rcases h.of_cons with ⟨hc, -⟩ | ⟨hc, -⟩ | ⟨hc, -⟩
  · exact not_isBlank_of_isNumeral hc
  · exact not_isBlank_of_isAsciiLetter hc
  · exact (of_isSign hc).2.2

/-- Two runs at the same place that cannot be prolonged are the same. -/
theorem Longest.unique (h : Longest run rest) (h' : Longest run' rest')
    (heq : run ++ rest = run' ++ rest') : run = run' ∧ rest = rest' := by
  rcases List.append_eq_append_iff.mp heq with ⟨more, hrun, hrest⟩ | ⟨more, hrun, hrest⟩
  · by_cases hmore : more = []
    · subst hmore
      simpa using And.intro hrun.symm hrest
    · have hprefix : more <+: rest := ⟨rest', hrest.symm⟩
      exact absurd (hrun ▸ h'.1) (h.2 more hmore hprefix)
  · by_cases hmore : more = []
    · subst hmore
      simpa using And.intro hrun hrest.symm
    · have hprefix : more <+: rest' := ⟨rest, hrest.symm⟩
      exact absurd (hrun ▸ h.1) (h'.2 more hmore hprefix)

/-- What would prolong a run begins with the character at which the run stopped. -/
theorem exists_cons_of_isPrefix_dropWhile {p : Char → Bool} {more : List Char} (hne : more ≠ [])
    (h : more <+: cs.dropWhile p) :
    ∃ d later behind, more = d :: later ∧ cs.dropWhile p = d :: behind := by
  obtain ⟨behind, hbehind⟩ := h
  cases more with
  | nil => exact absurd rfl hne
  | cons d later => exact ⟨d, later, later ++ behind, rfl, hbehind.symm⟩

theorem longest_numeral (hc : isNumeral c = true) (rest : List Char) :
    Longest (c :: rest.takeWhile isNumeral) (rest.dropWhile isNumeral) := by
  constructor
  · apply Run.numeral (List.cons_ne_nil _ _)
    intro d hd
    rcases List.mem_cons.mp hd with rfl | hd
    · exact hc
    · exact List.mem_takeWhile_imp hd
  · intro more hne hprefix hrun
    obtain ⟨d, later, behind, rfl, hdrop⟩ := exists_cons_of_isPrefix_dropWhile hne hprefix
    rw [List.cons_append] at hrun
    rcases hrun.of_cons with ⟨-, hall⟩ | ⟨hletter, -⟩ | ⟨hsign, -⟩
    · have hd := hall d (List.mem_append_right _ List.mem_cons_self)
      rw [not_of_dropWhile_eq_cons hdrop] at hd
      cases hd
    · rw [not_isAsciiLetter_of_isNumeral hc] at hletter
      cases hletter
    · rw [(of_isSign hsign).1] at hc
      cases hc

theorem longest_name (hc : isAsciiLetter c = true) (rest : List Char) :
    Longest (c :: rest.takeWhile isAsciiLetter ++
        (rest.dropWhile isAsciiLetter).takeWhile isAsciiDigit)
      ((rest.dropWhile isAsciiLetter).dropWhile isAsciiDigit) := by
  constructor
  · apply Run.name (List.cons_ne_nil _ _)
    · intro d hd
      rcases List.mem_cons.mp hd with rfl | hd
      · exact hc
      · exact List.mem_takeWhile_imp hd
    · intro d hd
      exact List.mem_takeWhile_imp hd
  · intro more hne hprefix hrun
    obtain ⟨d, later, behind, rfl, hdrop⟩ := exists_cons_of_isPrefix_dropWhile hne hprefix
    have hdigit := not_of_dropWhile_eq_cons hdrop
    rw [List.append_assoc, List.cons_append] at hrun
    rcases hrun.of_cons with ⟨hnumeral, -⟩ | ⟨-, hall, hpairwise⟩ | ⟨hsign, -⟩
    · rw [not_isAsciiLetter_of_isNumeral hnumeral] at hc
      cases hc
    · -- The next character is then a letter; so no digit stands before it, and the letters had
      -- not come to their end.
      have hletter : isAsciiLetter d = true := by
        have hd := hall d (by simp)
        simpa only [hdigit, Bool.false_eq_true, or_false] using hd
      have hnone : (rest.dropWhile isAsciiLetter).takeWhile isAsciiDigit = [] := by
        apply List.eq_nil_iff_forall_not_mem.mpr
        intro x hx
        have hbehind := (List.pairwise_append.mp (List.pairwise_append.mp hpairwise).2.1).2.2 x hx d
          List.mem_cons_self (List.mem_takeWhile_imp hx)
        rw [hdigit] at hbehind
        cases hbehind
      have hafter := List.takeWhile_append_dropWhile (p := isAsciiDigit)
        (l := rest.dropWhile isAsciiLetter)
      rw [hnone, hdrop, List.nil_append] at hafter
      rw [not_of_dropWhile_eq_cons hafter.symm] at hletter
      cases hletter
    · rw [(of_isSign hsign).2.1] at hc
      cases hc

theorem longest_sign (hc : isOperator c = true ∨ isPunctuation c = true) (rest : List Char) :
    Longest [c] rest := by
  refine ⟨.sign hc, fun more hne _ hrun => ?_⟩
  obtain ⟨hnumeral, hletter, -⟩ := of_isSign hc
  rcases hrun.of_cons with ⟨h, -⟩ | ⟨h, -⟩ | ⟨-, hnil⟩
  · rw [hnumeral] at h
    cases h
  · rw [hletter] at h
    cases h
  · exact hne hnil

end Runs

/-! ### Lexemes -/

section Lexemes
variable {c : Char} {cs run rest more : List Char} {t : Token}

/-- The token of a run. -/
def tokenOf : List Char → Except LexFault Token
  | [] => .error .invalid
  | c :: more =>
    if isNumeral c then numberToken (c :: more)
    else if isAsciiLetter c then
      .ok (nameToken ((c :: more).takeWhile isAsciiLetter) ((c :: more).dropWhile isAsciiLetter))
    else if isOperator c then .ok (.operator c)
    else if isPunctuation c then .ok (.punctuation c)
    else .error .invalid

theorem Lexeme.isRun (h : Lexeme run t) : Run run := by
  cases h with
  | number h _ hdigit =>
    obtain ⟨c, hc, -⟩ := hdigit
    exact .numeral (List.ne_nil_of_mem hc) h
  | cell hletters hl _ hd => exact .name hletters hl hd
  | identifier hne hl =>
    have hname := Run.name hne hl (fun c (hc : c ∈ []) => absurd hc List.not_mem_nil)
    rwa [List.append_nil] at hname
  | operator h => exact .sign (.inl h)
  | punctuation h => exact .sign (.inr h)

theorem Run.lexeme_or_malformed (h : Run run) : (∃ t, Lexeme run t) ∨ Malformed run := by
  cases h with
  | numeral hne h =>
    by_cases hnumber : run.count '.' ≤ 1 ∧ ∃ c ∈ run, isAsciiDigit c = true
    · exact .inl ⟨_, .number h hnumber.1 hnumber.2⟩
    · refine .inr ⟨h, ?_⟩
      by_cases hpoints : run.count '.' ≤ 1
      · right
        intro c hc
        by_contra hdigit
        exact hnumber ⟨hpoints, c, hc, by simpa using hdigit⟩
      · left
        omega
  | @name letters digits hne hletters hdigits =>
    by_cases hempty : digits = []
    · subst hempty
      rw [List.append_nil]
      exact .inl ⟨_, .identifier hne hletters⟩
    · exact .inl ⟨_, .cell hne hletters hempty hdigits⟩
  | sign h =>
    rcases h with h | h
    · exact .inl ⟨_, .operator h⟩
    · exact .inl ⟨_, .punctuation h⟩

theorem tokenOf_of_letters {letters digits : List Char} (hne : letters ≠ [])
    (hl : ∀ c ∈ letters, isAsciiLetter c = true) (hd : ∀ c ∈ digits, isAsciiDigit c = true) :
    tokenOf (letters ++ digits) = .ok (nameToken letters digits) := by
  have hstop : ∀ d ∈ digits.head?, isAsciiLetter d = false := fun d hhead =>
    not_isAsciiLetter_of_isNumeral (isNumeral_iff.mpr (.inl (hd d (List.mem_of_mem_head? hhead))))
  obtain ⟨htake, hdrop⟩ := takeWhile_dropWhile_append hl hstop
  cases letters with
  | nil => exact absurd rfl hne
  | cons c letters =>
    have hc : isAsciiLetter c = true := hl c List.mem_cons_self
    have hnumeral : isNumeral c = false := not_isNumeral_of_isAsciiLetter hc
    rw [List.cons_append] at htake hdrop ⊢
    simp only [tokenOf, htake, hdrop, hnumeral, hc, Bool.false_eq_true, if_false, if_true]

theorem tokenOf_of_numeral (hne : run ≠ []) (h : ∀ c ∈ run, isNumeral c = true) :
    tokenOf run = numberToken run := by
  cases run with
  | nil => exact absurd rfl hne
  | cons c more => exact if_pos (h c List.mem_cons_self)

theorem Lexeme.tokenOf_eq (h : Lexeme run t) : tokenOf run = .ok t := by
  have hrun := h.isRun.ne_nil
  cases h with
  | number h hpoints hdigit =>
    rw [tokenOf_of_numeral hrun h, numberToken_of_number h hpoints hdigit]
  | cell hletters hl hdigits hd =>
    rw [tokenOf_of_letters hletters hl hd]
    unfold nameToken
    rw [if_neg (by simpa using hdigits)]
  | identifier hne hl =>
    have hname := tokenOf_of_letters hne hl (fun c (hc : c ∈ []) => absurd hc List.not_mem_nil)
    rwa [List.append_nil] at hname
  | operator h =>
    obtain ⟨hnumeral, hletter, -⟩ := of_isSign (.inl h)
    simp only [tokenOf, hnumeral, hletter, h, Bool.false_eq_true, if_false, if_true]
  | @punctuation c h =>
    obtain ⟨hnumeral, hletter, -⟩ := of_isSign (.inr h)
    have hoperator : isOperator c = false := by
      simp only [isPunctuation, Bool.or_eq_true, beq_iff_eq, or_assoc] at h
      rcases h with rfl | rfl | rfl | rfl <;> decide
    simp only [tokenOf, hnumeral, hletter, hoperator, h, Bool.false_eq_true, if_false, if_true]

theorem Malformed.tokenOf_eq (h : Malformed run) (hne : run ≠ []) :
    tokenOf run = .error .number := by
  rw [tokenOf_of_numeral hne h.isNumeral, numberToken_of_malformed h.isNumeral h.reason]

/-! ### The lexer -/

/-- Where a run begins there is one that cannot be prolonged, and the lexer takes it. -/
theorem exists_longest (h : Run (c :: more)) (rest : List Char) :
    ∃ run behind, c :: rest = run ++ behind ∧ Longest run behind ∧
      lexeme c rest = (tokenOf run).map fun t => (t, behind) := by
  rcases h.of_cons with ⟨hc, -⟩ | ⟨hc, -⟩ | ⟨hc, rfl⟩
  · refine ⟨_, _, ?_, longest_numeral hc rest, ?_⟩
    · rw [List.cons_append, List.takeWhile_append_dropWhile]
    · simp only [lexeme, tokenOf, hc, if_true]
  · have hnumeral : isNumeral c = false := not_isNumeral_of_isAsciiLetter hc
    have hlongest := longest_name hc rest
    refine ⟨_, _, ?_, hlongest, ?_⟩
    · rw [List.append_assoc, List.takeWhile_append_dropWhile, List.cons_append,
        List.takeWhile_append_dropWhile]
    · rw [tokenOf_of_letters (List.cons_ne_nil _ _)]
      · simp only [lexeme, hnumeral, hc, Bool.false_eq_true, if_false, if_true]
        rfl
      · intro d hd
        rcases List.mem_cons.mp hd with rfl | hd
        · exact hc
        · exact List.mem_takeWhile_imp hd
      · intro d hd
        exact List.mem_takeWhile_imp hd
  · refine ⟨[c], rest, rfl, longest_sign hc rest, ?_⟩
    obtain ⟨hnumeral, hletter, -⟩ := of_isSign hc
    simp only [lexeme, tokenOf, hnumeral, hletter, Bool.false_eq_true, if_false]
    split
    · rfl
    · split
      · rfl
      · rfl

/-- What the lexer does with a run does not depend on how the run was found. -/
theorem lexeme_of_longest (h : Longest (c :: more) cs) :
    lexeme c (more ++ cs) = (tokenOf (c :: more)).map fun t => (t, cs) := by
  obtain ⟨run, behind, hsplit, hlongest, hlexeme⟩ := exists_longest h.1 (more ++ cs)
  obtain ⟨rfl, rfl⟩ := h.unique hlongest hsplit
  exact hlexeme

theorem lexeme_of_not_run (h : ∀ more, ¬ Run (c :: more)) (rest : List Char) :
    lexeme c rest = .error .invalid := by
  have hnumeral : ¬ isNumeral c = true := fun hc =>
    h _ (longest_numeral hc []).1
  have hletter : ¬ isAsciiLetter c = true := fun hc => h _ (longest_name hc []).1
  have hoperator : ¬ isOperator c = true := fun hc => h [] (.sign (.inl hc))
  have hpunctuation : ¬ isPunctuation c = true := fun hc => h [] (.sign (.inr hc))
  unfold lexeme
  rw [if_neg hnumeral, if_neg hletter, if_neg hoperator, if_neg hpunctuation]

theorem tokens_nil : tokens [] = .ok [] := by
  rw [tokens.eq_def]

theorem tokens_cons (c : Char) (rest : List Char) :
    tokens (c :: rest) =
      if isBlank c then tokens rest
      else (lexeme c rest).bind fun taken => (tokens taken.2).map (taken.1 :: ·) := by
  rw [tokens.eq_def]
  dsimp only
  split
  · rfl
  · split
    · rename_i hlexeme
      rw [hlexeme]
      rfl
    · rename_i hlexeme
      rw [hlexeme]
      rfl

theorem tokens_of_lexeme (ht : Lexeme run t) (h : Longest run cs) :
    tokens (run ++ cs) = (tokens cs).map (t :: ·) := by
  cases run with
  | nil => exact absurd rfl h.1.ne_nil
  | cons c more =>
    have hlexeme := lexeme_of_longest h
    rw [ht.tokenOf_eq] at hlexeme
    rw [List.cons_append, tokens_cons, h.1.not_isBlank, hlexeme]
    rfl

theorem tokens_of_malformed (hrun : Malformed run) (h : Longest run cs) :
    tokens (run ++ cs) = .error .number := by
  cases run with
  | nil => exact absurd rfl h.1.ne_nil
  | cons c more =>
    have hlexeme := lexeme_of_longest h
    rw [hrun.tokenOf_eq h.1.ne_nil] at hlexeme
    rw [List.cons_append, tokens_cons, h.1.not_isBlank, hlexeme]
    rfl

/-- A character with which a run begins is one with which a lexeme begins: a point may be followed
by a digit. -/
theorem Run.exists_lexeme (h : Run (c :: more)) : ∃ more t, Lexeme (c :: more) t := by
  rcases h.of_cons with ⟨hc, -⟩ | ⟨hc, -⟩ | ⟨hc, -⟩
  · rcases isNumeral_iff.mp hc with hdigit | rfl
    · exact ⟨[], _, .number (by simpa using hc) List.count_le_length ⟨c, by simp, hdigit⟩⟩
    · have hnumeral : ∀ c ∈ ['.', '0'], isNumeral c = true := by
        simp only [List.forall_mem_cons]
        exact ⟨rfl, rfl, nofun⟩
      exact ⟨['0'], _, .number hnumeral (Nat.le_refl 1) ⟨'0', by simp, rfl⟩⟩
  · exact ⟨[], _, .identifier (List.cons_ne_nil _ _) (by simpa using hc)⟩
  · rcases hc with hc | hc
    · exact ⟨[], _, .operator hc⟩
    · exact ⟨[], _, .punctuation hc⟩

end Lexemes

/-! ### Whole texts -/

section Texts
variable {cs rest : List Char} {ts : List Token} {f : LexFault}

theorem Lexes.tokens_eq (h : Lexes cs ts rest) : tokens cs = (tokens rest).map (ts ++ ·) := by
  induction h with
  | stop cs => cases tokens cs <;> rfl
  | blank hc _ ih => rw [tokens_cons, if_pos hc, ih]
  | lexeme ht hlongest _ ih =>
    rw [tokens_of_lexeme ht hlongest, ih]
    cases tokens _ <;> rfl

theorem Fails.tokens_eq (h : Fails cs f.tag) : tokens cs = .error f := by
  generalize htag : f.tag = tag at h
  cases h with
  | number h hlongest =>
    have hf : f = .number := by
      cases f with
      | number => rfl
      | invalid => exact absurd htag (by decide)
    rw [hf]
    exact tokens_of_malformed h hlongest
  | invalid hblank h =>
    have hf : f = .invalid := by
      cases f with
      | number => exact absurd htag (by decide)
      | invalid => rfl
    rw [hf]
    rw [tokens_cons, hblank, lexeme_of_not_run]
    · rfl
    · intro more hrun
      obtain ⟨more, t, ht⟩ := hrun.exists_lexeme
      exact h more t ht

/-- Every text is a sequence of blanks and lexemes up to its end or up to where it fails. -/
theorem exists_lexes (cs : List Char) :
    ∃ ts rest, Lexes cs ts rest ∧ (rest = [] ∨ ∃ f : LexFault, Fails rest f.tag) := by
  induction hlength : cs.length using Nat.strong_induction_on generalizing cs with
  | h n ih =>
    cases cs with
    | nil => exact ⟨[], [], .stop [], .inl rfl⟩
    | cons c cs =>
      by_cases hblank : isBlank c = true
      · obtain ⟨ts, rest, hlexes, hend⟩ := ih cs.length (by simp at hlength; omega) cs rfl
        exact ⟨ts, rest, .blank hblank hlexes, hend⟩
      · by_cases hrun : ∃ more, Run (c :: more)
        · obtain ⟨more, hrun⟩ := hrun
          obtain ⟨run, behind, hsplit, hlongest, -⟩ := exists_longest hrun cs
          rcases hlongest.1.lexeme_or_malformed with ⟨t, ht⟩ | hmalformed
          · have hshorter : behind.length < n := by
              have hpos := List.length_pos_iff.mpr hlongest.1.ne_nil
              rw [← hlength, hsplit, List.length_append]
              omega
            obtain ⟨ts, rest, hlexes, hend⟩ := ih behind.length hshorter behind rfl
            exact ⟨t :: ts, rest, hsplit ▸ .lexeme ht hlongest hlexes, hend⟩
          · exact ⟨[], c :: cs, .stop _, .inr ⟨.number, hsplit ▸ .number hmalformed hlongest⟩⟩
        · refine ⟨[], c :: cs, .stop _, .inr ⟨.invalid, .invalid (by simpa using hblank) ?_⟩⟩
          intro more t ht
          exact hrun ⟨more, ht.isRun⟩

/-- The tokens of a text are those of the lexemes of which it is made, between blanks, in their
order and each as long as it can be; and a text that is not made so has a fault, that of the first
place at which there is neither a blank nor a lexeme. -/
theorem tokenize_iff_lexes (s : String) :
    (∀ ts, tokenize s = .ok ts ↔ Lexes s.toList ts []) ∧
    ∀ f, tokenize s = .error f ↔ ∃ ts rest, Lexes s.toList ts rest ∧ Fails rest f.tag := by
  have hok (ts : List Token) (h : Lexes s.toList ts []) : tokenize s = .ok ts := by
    have heq : tokenize s = (tokens []).map (ts ++ ·) := h.tokens_eq
    rw [tokens_nil] at heq
    simpa [Except.map] using heq
  have herror (f : LexFault) (h : ∃ ts rest, Lexes s.toList ts rest ∧ Fails rest f.tag) :
      tokenize s = .error f := by
    obtain ⟨ts, rest, hlexes, hfails⟩ := h
    have heq : tokenize s = (tokens rest).map (ts ++ ·) := hlexes.tokens_eq
    rw [hfails.tokens_eq] at heq
    exact heq
  obtain ⟨ts, rest, hlexes, rfl | ⟨f, hfails⟩⟩ := exists_lexes s.toList
  · refine ⟨fun us => ⟨fun h => ?_, hok us⟩, fun f => ⟨fun h => ?_, herror f⟩⟩
    · rw [hok ts hlexes] at h
      cases h
      exact hlexes
    · rw [hok ts hlexes] at h
      cases h
  · have hfault := herror f ⟨ts, rest, hlexes, hfails⟩
    refine ⟨fun us => ⟨fun h => ?_, hok us⟩, fun g => ⟨fun h => ?_, herror g⟩⟩
    · rw [hfault] at h
      cases h
    · rw [hfault] at h
      cases h
      exact ⟨ts, rest, hlexes, hfails⟩

/-- One and a half is the double of that value, with a blank behind it. -/
theorem tokenize_iff_lexes_oneAndAHalf :
    tokenize "1.5 " = .ok [.number (Float.ofBits 0x3FF8000000000000)] := by
  have hvalue : writtenDouble "1.5".toList = Float.ofBits 0x3FF8000000000000 := by decide +kernel
  have hnumeral : "1.5".toList.all isNumeral = true := by decide +kernel
  have hlexeme : Lexeme "1.5".toList (.number (writtenDouble "1.5".toList)) :=
    .number (List.all_eq_true.mp hnumeral) (by decide +kernel) ⟨'1', by simp, by decide⟩
  have hlongest : Longest "1.5".toList [' '] := longest_numeral rfl ".5 ".toList
  rw [hvalue] at hlexeme
  exact ((tokenize_iff_lexes "1.5 ").1 _).mpr (.lexeme hlexeme hlongest (.blank rfl (.stop [])))

end Texts

end Worksheet.Formula
