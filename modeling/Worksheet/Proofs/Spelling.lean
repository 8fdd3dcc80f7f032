import Worksheet.Address
import Worksheet.Proofs.Blanks

/-!
How the text of a reference is spelled. A text that names a cell consists of blanks, ASCII letters
and decimal digits. Upper case changes none of these but the small letters, which become their
capitals, so it leaves the cell that the text names.
-/
namespace Worksheet

open Text

/-- The capital of an ASCII letter; other characters stay. -/
def capital (c : Char) : Char := if isAsciiLower c then Char.ofNat (c.toNat - 32) else c

theorem capital_of_lower : ∀ n : Fin 26, let c := Char.ofNat (97 + n)
    capital (capital c) = capital c ∧ isBlank (capital c) = isBlank c ∧
    isAsciiLetter (capital c) = isAsciiLetter c ∧ decimalDigit? (capital c) = decimalDigit? c := by
  decide +kernel

theorem capital_spec (c : Char) :
    capital (capital c) = capital c ∧ isBlank (capital c) = isBlank c ∧
    isAsciiLetter (capital c) = isAsciiLetter c ∧ decimalDigit? (capital c) = decimalDigit? c := by
  by_cases hc : isAsciiLower c = true
  · have hrange : 97 ≤ c.toNat ∧ c.toNat ≤ 122 := by
      simpa only [isAsciiLower, Bool.and_eq_true, decide_eq_true_eq] using hc
    have hindex : Char.ofNat (97 + (c.toNat - 97)) = c := by
      rw [Nat.add_sub_cancel' hrange.1, Char.ofNat_toNat]
    have hfacts := capital_of_lower ⟨c.toNat - 97, by omega⟩
    simpa only [hindex] using hfacts
  · have hsame : capital c = c := if_neg hc
    rw [hsame]
    exact ⟨hsame, rfl, rfl, rfl⟩

/-! ### Characters of references -/

/-- A character that a text with a cell's name may hold. -/
def IsLegible (c : Char) : Prop :=
  isBlank c = true ∨ isAsciiLetter c = true ∨ (decimalDigit? c).isSome = true

def Legible (cs : List Char) : Prop := ∀ c ∈ cs, IsLegible c

/-- First and last code points of the blanks, and of the digits of each script. -/
def caselessRuns : List (Nat × Nat) :=
  [(9, 13), (28, 32), (0x85, 0x85), (0xA0, 0xA0), (0x1680, 0x1680), (0x2000, 0x200A),
    (0x2028, 0x2029), (0x202F, 0x202F), (0x205F, 0x205F), (0x3000, 0x3000)] ++
    decimalZeros.map fun nought => (nought, nought + 9)

/-- Whether a run has no code point between two others. -/
def apart (run : Nat × Nat) (first last : Nat) : Bool := run.2.blt first || last.blt run.1

theorem caselessRuns_apart : (caselessRuns.all fun run =>
    (upperRuns.all fun cased => apart run cased.first cased.last) &&
    (upperExpansions.all fun cased => apart run cased.1 cased.1) && apart run 97 122) = true := by
  decide +kernel

theorem not_between_of_apart {run : Nat × Nat} {first last n : Nat}
    (h : apart run first last = true) (hn : run.1 ≤ n ∧ n ≤ run.2) : ¬ (first ≤ n ∧ n ≤ last) := by
  simp only [apart, Bool.or_eq_true, Nat.blt_eq] at h
  omega

theorem upperChar_of_caseless {run : Nat × Nat} {c : Char} (hrun : run ∈ caselessRuns)
    (hc : run.1 ≤ c.toNat ∧ c.toNat ≤ run.2) : upperChar c = [capital c] := by
  have hapart := List.all_eq_true.mp caselessRuns_apart run hrun
  simp only [Bool.and_eq_true, List.all_eq_true] at hapart
  obtain ⟨⟨hruns, hexpansions⟩, hlower⟩ := hapart
  have hnotLower : isAsciiLower c = false := by
    have hbetween := not_between_of_apart hlower hc
    simpa [isAsciiLower] using hbetween
  have hnoRun : upperRuns.findSome? (·.counterpart? c.toNat) = none := by
    refine List.findSome?_eq_none_iff.mpr fun cased hcased => ?_
    have hbetween := not_between_of_apart (hruns cased hcased) hc
    unfold CaseRun.counterpart?
    refine if_neg fun h => hbetween ?_
    simp only [Bool.and_eq_true, decide_eq_true_eq] at h
    exact h.1
  have hnoExpansion : upperExpansions.lookup c.toNat = none := by
    refine List.lookup_eq_none_iff.mpr fun cased hcased => ?_
    have hbetween := not_between_of_apart (hexpansions cased hcased) hc
    exact bne_iff_ne.mpr (by omega)
  unfold upperChar capital
  rw [hnotLower, hnoRun, hnoExpansion]
  simp

theorem exists_caselessRun_of_blank {c : Char} (h : isBlank c = true) :
    ∃ run ∈ caselessRuns, run.1 ≤ c.toNat ∧ c.toNat ≤ run.2 := by
  simp only [isBlank, Bool.or_eq_true, Bool.and_eq_true, decide_eq_true_eq, beq_iff_eq] at h
  simp only [caselessRuns, List.mem_append, or_and_right, exists_or]
  refine .inl ?_
  simp only [List.mem_cons, List.not_mem_nil, or_false, exists_eq_or_imp, exists_eq_left]
  omega

theorem exists_caselessRun_of_digit {c : Char} (h : (decimalDigit? c).isSome = true) :
    ∃ run ∈ caselessRuns, run.1 ≤ c.toNat ∧ c.toNat ≤ run.2 := by
  obtain ⟨digit, hdigit⟩ := Option.isSome_iff_exists.mp h
  obtain ⟨nought, hnought, -⟩ := Option.map_eq_some_iff.mp hdigit
  have hrange := List.find?_some hnought
  simp only [Bool.and_eq_true, decide_eq_true_eq] at hrange
  refine ⟨(nought, nought + 9), ?_, by dsimp only; omega⟩
  exact List.mem_append_right _ (List.mem_map_of_mem (List.mem_of_find?_eq_some hnought))

theorem upperChar_of_legible {c : Char} (h : IsLegible c) : upperChar c = [capital c] := by
  rcases h with hblank | hletter | hdigit
  · obtain ⟨run, hrun, hc⟩ := exists_caselessRun_of_blank hblank
    exact upperChar_of_caseless hrun hc
  · have hlt : c.toNat < 128 := by
      simp only [isAsciiLetter, isAsciiUpper, isAsciiLower, Bool.or_eq_true, Bool.and_eq_true,
        decide_eq_true_eq] at hletter
      omega
    unfold upperChar capital
    rw [if_pos hlt]
    split
    · rfl
    · rfl
  · obtain ⟨run, hrun, hc⟩ := exists_caselessRun_of_digit hdigit
    exact upperChar_of_caseless hrun hc

theorem isLegible_capital {c : Char} : IsLegible (capital c) ↔ IsLegible c := by
  obtain ⟨-, hblank, hletter, hdigit⟩ := capital_spec c
  unfold IsLegible
  rw [hblank, hletter, hdigit]

section Legible
variable {cs : List Char}

theorem upper_of_legible (h : Legible cs) : upper cs = cs.map capital := by
  induction cs with
  | nil => rfl
  | cons c rest ih =>
    have hrest : Legible rest := fun d hd => h d (List.mem_cons_of_mem c hd)
    rw [upper, List.flatMap_cons, upperChar_of_legible (h c List.mem_cons_self), ← upper, ih hrest]
    rfl

/-- A legible text has no colon, and neither has its upper case. -/
theorem ne_colon_of_mem_upper (h : Legible cs) : ∀ c ∈ upper cs, (c != ':') = true := by
  intro c hc
  rw [upper_of_legible h] at hc
  obtain ⟨d, hd, rfl⟩ := List.mem_map.mp hc
  refine bne_iff_ne.mpr fun hcolon => ?_
  have hlegible := isLegible_capital.mpr (h d hd)
  rw [hcolon] at hlegible
  rcases hlegible with h | h | h
  · revert h
    decide
  · revert h
    decide
  · revert h
    decide

/-! ### Reading in upper case -/

theorem takeWhile_letters_capital (cs : List Char) :
    (cs.map capital).takeWhile isAsciiLetter = (cs.takeWhile isAsciiLetter).map capital := by
  have hletter : isAsciiLetter ∘ capital = isAsciiLetter := funext fun c => (capital_spec c).2.2.1
  rw [List.takeWhile_map, hletter]

theorem dropWhile_letters_capital (cs : List Char) :
    (cs.map capital).dropWhile isAsciiLetter = (cs.dropWhile isAsciiLetter).map capital := by
  have hletter : isAsciiLetter ∘ capital = isAsciiLetter := funext fun c => (capital_spec c).2.2.1
  rw [List.dropWhile_map, hletter]

theorem decimalDigits_capital (cs : List Char) :
    (cs.map capital).mapM decimalDigit? = cs.mapM decimalDigit? := by
  have hdigit : decimalDigit? ∘ capital = decimalDigit? := funext fun c => (capital_spec c).2.2.2
  rw [List.mapM_map, hdigit]

theorem trim_capital (cs : List Char) : trim (cs.map capital) = (trim cs).map capital := by
  have hblank : isBlank ∘ capital = isBlank := funext fun c => (capital_spec c).2.1
  simp only [trim, trimLeft, trimRight, List.dropWhile_map, hblank, ← List.map_reverse]

theorem split?_capital (cs : List Char) :
    Coord.split? (cs.map capital) =
      (Coord.split? cs).map fun (letters, digits) => (letters.map capital, digits) := by
  unfold Coord.split?
  dsimp only
  rw [takeWhile_letters_capital, dropWhile_letters_capital, decimalDigits_capital,
    List.isEmpty_map, List.isEmpty_map]
  split
  · rfl
  · rw [Option.map_map]
    rfl

theorem legible_of_letters (h : ∀ c ∈ cs, isAsciiLetter c = true) : Legible cs :=
  fun c hc => .inr (.inl (h c hc))

/-- The letters and the digits of a text that names a cell. -/
theorem split?_eq_some {letters : List Char} {digits : List Nat}
    (h : Coord.split? cs = some (letters, digits)) :
    letters ≠ [] ∧ (∀ c ∈ letters, isAsciiLetter c = true) ∧
      ∃ rest, cs = letters ++ rest ∧ rest.mapM decimalDigit? = some digits := by
  unfold Coord.split? at h
  dsimp only at h
  split at h
  · cases h
  · rename_i hparts
    obtain ⟨ns, hns, heq⟩ := Option.map_eq_some_iff.mp h
    cases heq
    simp only [Bool.or_eq_true, List.isEmpty_iff, not_or] at hparts
    exact ⟨hparts.1, fun c hc => List.mem_takeWhile_imp hc, _,
      List.takeWhile_append_dropWhile.symm, hns⟩

theorem columnIndex_capital (h : Legible cs) :
    Address.columnIndex (cs.map capital) = Address.columnIndex cs := by
  have hcapital : Legible (cs.map capital) := by
    intro d hd
    obtain ⟨c, hc, rfl⟩ := List.mem_map.mp hd
    exact isLegible_capital.mpr (h c hc)
  have htwice : capital ∘ capital = capital := funext fun c => (capital_spec c).1
  unfold Address.columnIndex
  rw [upper_of_legible hcapital, upper_of_legible h, List.map_map, htwice]

end Legible

/-- A legible text names the same cell in upper case. -/
theorem read_upperText {ref : String} (h : Legible ref.toList) :
    Coord.read (upperText ref) = Coord.read ref := by
  unfold Coord.read upperText
  rw [String.toList_ofList, upper_of_legible h, trim_capital, split?_capital]
  cases hsplit : Coord.split? (trim ref.toList) with
  | none => rfl
  | some parts =>
    obtain ⟨letters, digits⟩ := parts
    dsimp only [Option.map_some]
    rw [columnIndex_capital (legible_of_letters (split?_eq_some hsplit).2.1)]

theorem map_eq_of_mapM_eq_some {α β : Type} {f : α → Option β} {xs : List α} {ys : List β}
    (h : xs.mapM f = some ys) : xs.map f = ys.map some := by
  induction xs generalizing ys with
  | nil =>
    cases h
    rfl
  | cons x rest ih =>
    rw [List.mapM_cons] at h
    obtain ⟨y, hy, h⟩ := Option.bind_eq_some_iff.mp h
    obtain ⟨others, hothers, h⟩ := Option.bind_eq_some_iff.mp h
    cases h
    rw [List.map_cons, List.map_cons, hy, ih hothers]

/-- A text that names a cell is legible. -/
theorem legible_of_read {ref : String} {c : Coord} (h : Coord.read ref = .ok (some c)) :
    Legible ref.toList := by
  unfold Coord.read at h
  cases hsplit : Coord.split? (trim ref.toList) with
  | none =>
    rw [hsplit] at h
    cases h
  | some parts =>
    obtain ⟨letters, digits⟩ := parts
    obtain ⟨-, hletters, rest, htrim, hdigits⟩ := split?_eq_some hsplit
    intro c hc
    rcases isBlank_or_mem_trim hc with hblank | hc
    · exact .inl hblank
    · rw [htrim] at hc
      rcases List.mem_append.mp hc with hc | hc
      · exact .inr (.inl (hletters c hc))
      · have hdigit := map_eq_of_mapM_eq_some hdigits ▸ List.mem_map_of_mem hc
        obtain ⟨d, -, hd⟩ := List.mem_map.mp hdigit
        exact .inr (.inr (by rw [← hd]; rfl))

end Worksheet
