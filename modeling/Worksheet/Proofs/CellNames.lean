import Mathlib.Algebra.Ring.Nat
import Mathlib.Data.List.TakeWhile
import Worksheet.Proofs.ListedReferences

/-!
The names of cells. A column label is read back as its column and a row number as its row, so the
address of a cell names that cell and no two cells share one. Every cell to which a reference refers
has an address, as its row number was read from a text that is not too long.
-/
namespace Worksheet

open Text

/-! ### Column labels -/

namespace Address

theorem letter_spec : ∀ n : Fin 26, isAsciiUpper (letter n) = true ∧ (letter n).toNat = 65 + n := by
  decide

theorem isAsciiUpper_of_mem_labelLetters {c : Char} {n : Nat} (h : c ∈ labelLetters n) :
    isAsciiUpper c = true := by
  induction n using labelLetters.induct with
  | case1 =>
    rw [labelLetters, if_pos rfl] at h
    cases h
  | case2 n hn ih =>
    rw [labelLetters, if_neg hn] at h
    rcases List.mem_append.mp h with h | h
    · exact ih h
    · cases List.mem_singleton.mp h
      exact (letter_spec ⟨(n - 1) % 26, Nat.mod_lt _ (by omega)⟩).1

theorem isAsciiLetter_of_mem_labelLetters {c : Char} {n : Nat} (h : c ∈ labelLetters n) :
    isAsciiLetter c = true := by
  unfold isAsciiLetter
  rw [isAsciiUpper_of_mem_labelLetters h, Bool.true_or]

theorem columnLabel_ne_nil (col : Nat) : columnLabel col ≠ [] := by
  unfold columnLabel
  rw [labelLetters, if_neg (Nat.succ_ne_zero col)]
  exact List.append_ne_nil_of_right_ne_nil _ (List.cons_ne_nil _ _)

theorem capital_of_isAsciiUpper {c : Char} (h : isAsciiUpper c = true) : capital c = c := by
  refine if_neg fun hlower => ?_
  simp only [isAsciiUpper, isAsciiLower, Bool.and_eq_true, decide_eq_true_eq] at h hlower
  omega

theorem upper_labelLetters (n : Nat) : upper (labelLetters n) = labelLetters n := by
  rw [upper_of_legible (legible_of_letters fun c hc => isAsciiLetter_of_mem_labelLetters hc)]
  exact (List.map_congr_left fun c hc =>
    capital_of_isAsciiUpper (isAsciiUpper_of_mem_labelLetters hc)).trans (List.map_id _)

theorem foldl_labelLetters (n : Nat) :
    (labelLetters n).foldl (fun n c => n * 26 + ((c.toNat : Int) - 64)) 0 = n := by
  induction n using labelLetters.induct with
  | case1 =>
    rw [labelLetters, if_pos rfl]
    rfl
  | case2 n hn ih =>
    have hletter : (letter ((n - 1) % 26)).toNat = 65 + (n - 1) % 26 :=
      (letter_spec ⟨(n - 1) % 26, Nat.mod_lt _ (by omega)⟩).2
    rw [labelLetters, if_neg hn, List.foldl_append, ih, List.foldl_cons, List.foldl_nil, hletter]
    omega

/-- A column label is read back as its column. -/
theorem columnIndex_columnLabel (col : Nat) : columnIndex (columnLabel col) = col := by
  unfold columnIndex columnLabel
  rw [upper_labelLetters, foldl_labelLetters]
  omega

theorem le_foldl_letters {cs : List Char} {n : Int} (hn : 0 ≤ n) (h : ∀ c ∈ cs, 64 ≤ c.toNat) :
    n ≤ cs.foldl (fun n c => n * 26 + ((c.toNat : Int) - 64)) n := by
  induction cs generalizing n with
  | nil => exact Int.le_refl n
  | cons c rest ih =>
    have hc : 64 ≤ c.toNat := h c List.mem_cons_self
    have hstep : n ≤ n * 26 + ((c.toNat : Int) - 64) := by omega
    rw [List.foldl_cons]
    exact Int.le_trans hstep (ih (by omega) fun d hd => h d (List.mem_cons_of_mem c hd))

theorem columnIndex_nonneg {letters : List Char} (hne : letters ≠ [])
    (h : ∀ c ∈ letters, isAsciiLetter c = true) : 0 ≤ columnIndex letters := by
  have hcode : ∀ c ∈ upper letters, 65 ≤ c.toNat := by
    intro c hc
    rw [upper_of_legible (legible_of_letters h)] at hc
    obtain ⟨d, hd, rfl⟩ := List.mem_map.mp hc
    have hletter : isAsciiLetter (capital d) = true := (capital_spec d).2.2.1.trans (h d hd)
    simp only [isAsciiLetter, isAsciiUpper, isAsciiLower, Bool.or_eq_true, Bool.and_eq_true,
      decide_eq_true_eq] at hletter
    omega
  have hupper : upper letters ≠ [] := by
    rw [upper_of_legible (legible_of_letters h)]
    exact fun hnil => hne (List.map_eq_nil_iff.mp hnil)
  unfold columnIndex
  cases hcs : upper letters with
  | nil => exact absurd hcs hupper
  | cons c rest =>
    rw [hcs] at hcode
    have hfirst : 65 ≤ c.toNat := hcode c List.mem_cons_self
    have hpos : 0 ≤ 0 * 26 + ((c.toNat : Int) - 64) := by omega
    have hrest := le_foldl_letters hpos fun d hd =>
      Nat.le_of_succ_le (hcode d (List.mem_cons_of_mem c hd))
    rw [List.foldl_cons]
    omega

end Address

/-! ### Row numbers -/

theorem digitChar_spec : ∀ d : Fin 10, isAsciiDigit (Nat.digitChar d) = true ∧
    decimalDigit? (Nat.digitChar d) = some d.val := by
  decide +kernel

/-- The digits of a number are read back as that number. -/
theorem mapM_natDigits (n : Nat) : ∃ digits, (natDigits n).mapM decimalDigit? = some digits ∧
    digits.length = (natDigits n).length ∧ digits.foldl (fun n d => n * 10 + d) 0 = n := by
  unfold natDigits
  induction n using Nat.strongRecOn with
  | ind n ih =>
  by_cases hn : n < 10
  · refine ⟨[n], ?_, ?_, ?_⟩
    · rw [Nat.toDigits_of_lt_base hn, List.mapM_cons, (digitChar_spec ⟨n, hn⟩).2]
      rfl
    · rw [Nat.toDigits_of_lt_base hn]
      rfl
    · exact (Nat.zero_add n)
  · have hlast := (digitChar_spec ⟨n % 10, Nat.mod_lt n (by decide)⟩).2
    obtain ⟨digits, hdigits, hlength, hvalue⟩ := ih (n / 10) (by omega)
    refine ⟨digits ++ [n % 10], ?_, ?_, ?_⟩
    · rw [Nat.toDigits_of_base_le (by decide) (by omega), List.mapM_append, hdigits,
        List.mapM_cons, hlast]
      rfl
    · rw [Nat.toDigits_of_base_le (by decide) (by omega), List.length_append, hlength,
        List.length_append]
      rfl
    · rw [List.foldl_append, hvalue, List.foldl_cons, List.foldl_nil]
      omega

theorem isAsciiDigit_of_mem_natDigits {c : Char} {n : Nat} (h : c ∈ natDigits n) :
    isAsciiDigit c = true := by
  have hdigit : c.isDigit = true := Nat.isDigit_of_mem_toDigits (by decide) (by decide) h
  simp only [Char.isDigit, Bool.and_eq_true, decide_eq_true_eq, ge_iff_le,
    UInt32.le_iff_toNat_le] at hdigit
  simp only [isAsciiDigit, Bool.and_eq_true, decide_eq_true_eq]
  exact hdigit

theorem foldl_digits_lt {digits : List Nat} (h : ∀ d ∈ digits, d < 10) (n : Nat) :
    digits.foldl (fun n d => n * 10 + d) n < (n + 1) * 10 ^ digits.length := by
  induction digits generalizing n with
  | nil => simp
  | cons d rest ih =>
    have hd : d < 10 := h d List.mem_cons_self
    rw [List.foldl_cons, List.length_cons]
    calc rest.foldl (fun n d => n * 10 + d) (n * 10 + d)
        < (n * 10 + d + 1) * 10 ^ rest.length :=
          ih (fun e he => h e (List.mem_cons_of_mem d he)) (n * 10 + d)
      _ ≤ ((n + 1) * 10) * 10 ^ rest.length := Nat.mul_le_mul_right _ (by omega)
      _ = (n + 1) * 10 ^ (rest.length + 1) := by rw [Nat.pow_succ, Nat.mul_assoc, Nat.mul_comm 10]

theorem integerOfDigits_lt {digits : List Nat} {n : Nat} (h : ∀ d ∈ digits, d < 10)
    (hn : integerOfDigits digits = .ok n) : n < 10 ^ digitLimit := by
  unfold integerOfDigits at hn
  split at hn
  · cases hn
  · rename_i hlength
    cases hn
    have hlt := foldl_digits_lt h 0
    rw [Nat.zero_add, Nat.one_mul] at hlt
    exact hlt.trans_le (Nat.pow_le_pow_right (by decide) (Nat.le_of_not_lt hlength))

theorem decimalDigit?_lt {c : Char} {d : Nat} (h : decimalDigit? c = some d) : d < 10 := by
  obtain ⟨nought, hnought, rfl⟩ := Option.map_eq_some_iff.mp h
  have hrange := List.find?_some hnought
  simp only [Bool.and_eq_true, decide_eq_true_eq] at hrange
  omega

/-! ### Addresses -/

namespace Coord

/-- A cell that has an address: its row number is not too long to be written. -/
structure Addressable (c : Coord) : Prop where
  row_nonneg : 0 ≤ c.row
  col_nonneg : 0 ≤ c.col
  row_lt : (c.row + 1).toNat < 10 ^ digitLimit

/-- The label and the row number of a cell. -/
def spelling (c : Coord) : List Char :=
  Address.columnLabel c.col.toNat ++ natDigits (c.row + 1).toNat

variable {c d : Coord}

theorem length_rowNumber_le (h : c.Addressable) :
    (natDigits (c.row + 1).toNat).length ≤ digitLimit :=
  (Nat.length_toDigits_le_iff (by decide) (by decide)).mpr h.row_lt

theorem address_of_addressable (h : c.Addressable) :
    c.address = .ok (String.ofList c.spelling) := by
  have hlength := length_rowNumber_le h
  obtain ⟨hrow, hcol, -⟩ := h
  have habs : (c.row + 1).natAbs = (c.row + 1).toNat := by omega
  unfold address Address.label integerText
  rw [if_neg (Int.not_lt.mpr hcol), habs]
  dsimp only
  rw [if_neg (Nat.not_lt.mpr hlength), if_neg (by omega)]
  exact congrArg Except.ok String.ofList_append.symm

theorem split?_spelling (c : Coord) {digits : List Nat}
    (h : (natDigits (c.row + 1).toNat).mapM decimalDigit? = some digits) :
    split? c.spelling = some (Address.columnLabel c.col.toNat, digits) := by
  have hlabel : ∀ x ∈ Address.columnLabel c.col.toNat, isAsciiLetter x = true :=
    fun x hx => Address.isAsciiLetter_of_mem_labelLetters hx
  have hdigits : ∀ x ∈ (natDigits (c.row + 1).toNat).head?, isAsciiLetter x = false := by
    intro x hx
    have hdigit := isAsciiDigit_of_mem_natDigits (List.mem_of_mem_head? hx)
    simp only [isAsciiDigit, Bool.and_eq_true, decide_eq_true_eq] at hdigit
    simp only [isAsciiLetter, isAsciiUpper, isAsciiLower, Bool.or_eq_false_iff,
      Bool.and_eq_false_iff, decide_eq_false_iff_not]
    omega
  obtain ⟨htake, hdrop⟩ := takeWhile_dropWhile_append hlabel hdigits
  have hne : natDigits (c.row + 1).toNat ≠ [] := Nat.toDigits_ne_nil
  unfold split? spelling
  dsimp only
  rw [htake, hdrop, h]
  simp [Address.columnLabel_ne_nil, hne]

theorem trim_spelling (c : Coord) : trim c.spelling = c.spelling := by
  have hblank : ∀ x ∈ c.spelling, isBlank x = false := by
    intro x hx
    have hrange : (48 ≤ x.toNat ∧ x.toNat ≤ 57) ∨ (65 ≤ x.toNat ∧ x.toNat ≤ 90) := by
      rcases List.mem_append.mp hx with hx | hx
      · refine .inr ?_
        simpa only [isAsciiUpper, Bool.and_eq_true, decide_eq_true_eq] using
          Address.isAsciiUpper_of_mem_labelLetters hx
      · refine .inl ?_
        simpa only [isAsciiDigit, Bool.and_eq_true, decide_eq_true_eq] using
          isAsciiDigit_of_mem_natDigits hx
    simp only [isBlank, Bool.or_eq_false_iff, Bool.and_eq_false_iff, decide_eq_false_iff_not,
      beq_eq_false_iff_ne]
    omega
  exact trim_eq_self (fun x hx => hblank x (List.mem_of_mem_head? hx))
    fun x hx => hblank x (List.mem_of_getLast? hx)

/-- The address of a cell names that cell. -/
theorem read_spelling (h : c.Addressable) : read (String.ofList c.spelling) = .ok (some c) := by
  have hlength := length_rowNumber_le h
  obtain ⟨hrow, hcol, -⟩ := h
  obtain ⟨digits, hdigits, hcount, hvalue⟩ := mapM_natDigits (c.row + 1).toNat
  unfold read
  rw [String.toList_ofList, trim_spelling, split?_spelling c hdigits]
  dsimp only
  have hnumber : integerOfDigits digits = .ok (c.row + 1).toNat := by
    unfold integerOfDigits
    rw [if_neg (by omega), hvalue]
  have hpos : (c.row + 1).toNat ≠ 0 := by omega
  rw [hnumber, Address.columnIndex_columnLabel]
  simp only [bind, Except.bind, pure, Except.pure, if_neg hpos]
  rw [Int.toNat_of_nonneg hcol, Int.toNat_of_nonneg (by omega), Int.add_sub_cancel]

/-- No two cells share an address. -/
theorem eq_of_address_eq (hc : c.Addressable) (hd : d.Addressable) (h : c.address = d.address) :
    c = d := by
  rw [address_of_addressable hc, address_of_addressable hd] at h
  have hread := read_spelling hc
  rw [Except.ok.inj h, read_spelling hd] at hread
  exact (Option.some.inj (Except.ok.inj hread)).symm

theorem addressable_of_read {ref : String} (h : read ref = .ok (some c)) : c.Addressable := by
  unfold read at h
  cases hsplit : split? (trim ref.toList) with
  | none =>
    rw [hsplit] at h
    cases h
  | some parts =>
    obtain ⟨letters, digits⟩ := parts
    rw [hsplit] at h
    obtain ⟨number, hnumber, h⟩ := Formula.bind_eq_ok.mp h
    obtain ⟨hne, hletters, rest, -, hdigits⟩ := split?_eq_some hsplit
    have hsmall : ∀ d ∈ digits, d < 10 := by
      intro d hd
      have hdigit := map_eq_of_mapM_eq_some hdigits ▸ List.mem_map_of_mem hd
      obtain ⟨x, -, hx⟩ := List.mem_map.mp hdigit
      exact decimalDigit?_lt hx
    have hlt := integerOfDigits_lt hsmall hnumber
    by_cases hzero : number = 0
    · rw [if_pos hzero] at h
      cases h
    · rw [if_neg hzero] at h
      cases h
      refine ⟨by dsimp only; omega, Address.columnIndex_nonneg hne hletters, ?_⟩
      rwa [Int.sub_add_cancel, Int.toNat_natCast]

end Coord

/-! ### Cells of references -/

/-- The coordinates of a range are those within its bounds. -/
theorem Range.mem_coords {r : Range} {c : Coord} :
    c ∈ r.coords ↔ (r.rowStart ≤ c.row ∧ c.row ≤ r.rowEnd) ∧ r.colStart ≤ c.col ∧
      c.col ≤ r.colEnd := by
  unfold Range.coords
  constructor
  · intro h
    obtain ⟨i, hi, h⟩ := List.mem_flatMap.mp h
    obtain ⟨j, hj, rfl⟩ := List.mem_map.mp h
    rw [List.mem_range, Range.height] at hi
    rw [List.mem_range, Range.width] at hj
    dsimp only
    omega
  · intro h
    obtain ⟨row, col⟩ := c
    dsimp only at h
    apply List.mem_flatMap.mpr
    refine ⟨(row - r.rowStart).toNat, ?_, ?_⟩
    · rw [List.mem_range, Range.height]
      omega
    · apply List.mem_map.mpr
      refine ⟨(col - r.colStart).toNat, ?_, ?_⟩
      · rw [List.mem_range, Range.width]
        omega
      · have hrow : r.rowStart + ((row - r.rowStart).toNat : Int) = row := by omega
        have hcol : r.colStart + ((col - r.colStart).toNat : Int) = col := by omega
        rw [hrow, hcol]

/-- Every cell to which a reference refers has an address. -/
theorem Formula.Reference.addressable_of_mem_coords {ref : Reference} {d : Coord}
    (h : d ∈ ref.coords) : d.Addressable := by
  cases ref with
  | cell ref =>
    dsimp only [Reference.coords] at h
    split at h
    · rename_i c hread
      cases List.mem_singleton.mp h
      exact Coord.addressable_of_read hread
    · cases h
  | range start stop =>
    dsimp only [Reference.coords] at h
    split at h
    · rename_i r hread
      obtain ⟨a, b, ha, hb, rfl⟩ := Range.read_eq_some hread
      obtain ⟨harow, hacol, halt⟩ := Coord.addressable_of_read ha
      obtain ⟨hbrow, hbcol, hblt⟩ := Coord.addressable_of_read hb
      obtain ⟨⟨hmin, hmax⟩, hcol, -⟩ := Range.mem_coords.mp h
      dsimp only [Range.between] at hmin hmax hcol
      refine ⟨by omega, by omega, ?_⟩
      rcases Int.le_total a.row b.row with hle | hle
      · exact Nat.lt_of_le_of_lt (by omega) hblt
      · exact Nat.lt_of_le_of_lt (by omega) halt
    · cases h

end Worksheet
