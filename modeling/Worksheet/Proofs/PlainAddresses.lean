import Mathlib.Data.List.Induction
import Mathlib.Data.Nat.Digits.Defs
import Worksheet.Proofs.CellNames

/-!
Addresses in their plain spelling. Columns and the capitals that label them correspond to one
another, as every number counted from one has exactly one numeral in base 26 without a nought. So
the address of a cell is the one plain spelling of all the texts that name it: the letters in upper
case, and the row number in ASCII digits without noughts in front.
-/
namespace Worksheet

open Text

/-! ### Column labels -/

namespace Address

variable {letters : List Char}

theorem letter_of_isAsciiUpper {c : Char} (h : isAsciiUpper c = true) :
    letter (c.toNat - 65) = c := by
  simp only [isAsciiUpper, Bool.and_eq_true, decide_eq_true_eq] at h
  unfold letter
  rw [Nat.add_sub_cancel' h.1, Char.ofNat_toNat]

/-- Capitals are the label of the number that they write. -/
theorem exists_labelLetters (h : ∀ c ∈ letters, isAsciiUpper c = true) :
    ∃ n : Nat, letters.foldl (fun n c => n * 26 + ((c.toNat : Int) - 64)) 0 = n ∧
      labelLetters n = letters := by
  induction letters using List.reverseRecOn with
  | nil => exact ⟨0, rfl, by rw [labelLetters, if_pos rfl]⟩
  | append_singleton front c ih =>
    obtain ⟨n, hn, hfront⟩ := ih fun d hd => h d (List.mem_append_left _ hd)
    have hc : isAsciiUpper c = true := h c (List.mem_append_right _ List.mem_cons_self)
    have hrange : 65 ≤ c.toNat ∧ c.toNat ≤ 90 := by
      simpa only [isAsciiUpper, Bool.and_eq_true, decide_eq_true_eq] using hc
    refine ⟨n * 26 + (c.toNat - 64), ?_, ?_⟩
    · rw [List.foldl_append, hn, List.foldl_cons, List.foldl_nil]
      omega
    · have hquotient : (n * 26 + (c.toNat - 64) - 1) / 26 = n := by omega
      have hremainder : (n * 26 + (c.toNat - 64) - 1) % 26 = c.toNat - 65 := by omega
      rw [labelLetters, if_neg (by omega), hquotient, hremainder, hfront,
        letter_of_isAsciiUpper hc]

theorem isAsciiUpper_capital_of_lower : ∀ n : Fin 26,
    isAsciiUpper (capital (Char.ofNat (97 + n))) = true := by
  decide +kernel

theorem isAsciiUpper_capital {c : Char} (h : isAsciiLetter c = true) :
    isAsciiUpper (capital c) = true := by
  by_cases hlower : isAsciiLower c = true
  · have hrange : 97 ≤ c.toNat ∧ c.toNat ≤ 122 := by
      simpa only [isAsciiLower, Bool.and_eq_true, decide_eq_true_eq] using hlower
    have hindex : Char.ofNat (97 + (c.toNat - 97)) = c := by
      rw [Nat.add_sub_cancel' hrange.1, Char.ofNat_toNat]
    have hcapital := isAsciiUpper_capital_of_lower ⟨c.toNat - 97, by omega⟩
    simpa only [hindex] using hcapital
  · have hupper : isAsciiUpper c = true := by
      simpa [isAsciiLetter, hlower] using h
    rw [capital_of_isAsciiUpper hupper]
    exact hupper

theorem isAsciiUpper_of_mem_upper (h : ∀ c ∈ letters, isAsciiLetter c = true) :
    ∀ c ∈ upper letters, isAsciiUpper c = true := by
  intro c hc
  rw [upper_of_legible (legible_of_letters h)] at hc
  obtain ⟨d, hd, rfl⟩ := List.mem_map.mp hc
  exact isAsciiUpper_capital (h d hd)

theorem label_natCast (col : Nat) : label col = .ok (String.ofList (columnLabel col)) := by
  unfold label
  rw [if_neg (by omega), Int.toNat_natCast]

/-- The label of the column that letters name is these letters in upper case. -/
theorem label_columnIndex (hne : letters ≠ []) (h : ∀ c ∈ letters, isAsciiLetter c = true) :
    label (columnIndex letters) = .ok (String.ofList (upper letters)) := by
  have hnonneg := columnIndex_nonneg hne h
  obtain ⟨n, hn, hlabel⟩ := exists_labelLetters (isAsciiUpper_of_mem_upper h)
  unfold columnIndex at hnonneg ⊢
  rw [hn] at hnonneg ⊢
  obtain ⟨col, rfl⟩ : ∃ col, n = col + 1 := Nat.exists_eq_succ_of_ne_zero (by omega)
  rw [Int.natCast_succ, Int.add_sub_cancel, label_natCast, columnLabel, hlabel]

end Address

/-! ### Row numbers -/

/-- The number that decimal digits write, the first digit counting most. -/
def writtenNumber (digits : List Nat) : Nat := Nat.ofDigits 10 digits.reverse

theorem writtenNumber_of_integerOfDigits {digits : List Nat} {n : Nat}
    (h : integerOfDigits digits = .ok n) : n = writtenNumber digits := by
  have hvalue : digits.foldl (fun n d => n * 10 + d) 0 = writtenNumber digits := by
    rw [writtenNumber, Nat.ofDigits_eq_foldr, List.foldr_reverse]
    simp only [Nat.cast_id, Nat.add_comm, Nat.mul_comm]
  unfold integerOfDigits at h
  split at h
  · cases h
  · cases h
    exact hvalue

/-- A numeral in ASCII digits without a nought in front. -/
structure IsPlainNumeral (numeral : List Char) (n : Nat) : Prop where
  isAsciiDigit : ∀ x ∈ numeral, isAsciiDigit x = true
  head?_ne : numeral.head? ≠ some '0'
  value_eq : digitsValue numeral = n

theorem digitValue_digitChar : ∀ d : Fin 10, digitValue (Nat.digitChar d) = d.val := by
  decide

theorem digitChar_ne_nought : ∀ d : Fin 10, d.val ≠ 0 → Nat.digitChar d ≠ '0' := by
  decide

theorem head?_natDigits_ne {n : Nat} (hn : n ≠ 0) : (natDigits n).head? ≠ some '0' := by
  unfold natDigits
  induction n using Nat.strongRecOn with
  | ind n ih =>
  by_cases hsmall : n < 10
  · rw [Nat.toDigits_of_lt_base hsmall, List.head?_cons]
    intro h
    exact digitChar_ne_nought ⟨n, hsmall⟩ hn (Option.some.inj h)
  · have hfront := ih (n / 10) (by omega) (by omega)
    have hne : Nat.toDigits 10 (n / 10) ≠ [] := Nat.toDigits_ne_nil
    obtain ⟨x, front, hx⟩ := List.exists_cons_of_ne_nil hne
    rw [Nat.toDigits_of_base_le (by decide) (by omega)]
    rw [hx, List.head?_cons] at hfront
    rw [hx, List.cons_append, List.head?_cons]
    exact hfront

theorem digitsValue_natDigits (n : Nat) : digitsValue (natDigits n) = n := by
  unfold natDigits
  induction n using Nat.strongRecOn with
  | ind n ih =>
  by_cases hsmall : n < 10
  · rw [Nat.toDigits_of_lt_base hsmall]
    exact (Nat.zero_add _).trans (digitValue_digitChar ⟨n, hsmall⟩)
  · have hfront := ih (n / 10) (by omega)
    have hlast := digitValue_digitChar ⟨n % 10, Nat.mod_lt n (by decide)⟩
    unfold digitsValue at hfront ⊢
    rw [Nat.toDigits_of_base_le (by decide) (by omega), List.foldl_append, hfront, List.foldl_cons,
      List.foldl_nil, hlast]
    dsimp only
    omega

theorem natDigits_isPlainNumeral {n : Nat} (hn : n ≠ 0) : IsPlainNumeral (natDigits n) n :=
  ⟨fun _ hx => isAsciiDigit_of_mem_natDigits hx, head?_natDigits_ne hn, digitsValue_natDigits n⟩

/-! ### Addresses -/

namespace Coord

variable {c d : Coord} {name : String}

/-- A cell at nought or beyond that has an address is one whose row number is not too long. -/
theorem addressable_of_address (hrow : 0 ≤ c.row) (h : c.address = .ok name) :
    c.Addressable := by
  unfold address at h
  obtain ⟨column, hcolumn, h⟩ := Formula.bind_eq_ok.mp h
  obtain ⟨row, hnumber, -⟩ := Formula.bind_eq_ok.mp h
  have hcol : 0 ≤ c.col := by
    unfold Address.label at hcolumn
    split at hcolumn
    · cases hcolumn
    · omega
  have hlength : (natDigits (c.row + 1).toNat).length ≤ digitLimit := by
    have habs : (c.row + 1).natAbs = (c.row + 1).toNat := by omega
    unfold integerText at hnumber
    rw [habs] at hnumber
    dsimp only at hnumber
    split at hnumber
    · cases hnumber
    · omega
  exact ⟨hrow, hcol, (Nat.length_toDigits_le_iff (by decide) (by decide)).mp hlength⟩

/-- A text in the spelling of references: letters and then a row number in digits of any script,
with blanks around them. -/
structure Spells (text : String) (letters row : List Char) (digits : List Nat) : Prop where
  trim_eq : trim text.toList = letters ++ row
  letters_ne_nil : letters ≠ []
  isAsciiLetter : ∀ x ∈ letters, isAsciiLetter x = true
  digits_eq : row.mapM decimalDigit? = some digits

/-- The address of the cell that a text names is the text in its plain spelling. -/
theorem address_of_read {text : String} (h : read text = .ok (some c)) :
    ∃ letters row digits numeral, Spells text letters row digits ∧
      IsPlainNumeral numeral (writtenNumber digits) ∧
      c.address = .ok (String.ofList (upper letters ++ numeral)) := by
  have haddressable := addressable_of_read h
  unfold read at h
  cases hsplit : split? (trim text.toList) with
  | none =>
    rw [hsplit] at h
    cases h
  | some parts =>
    obtain ⟨letters, digits⟩ := parts
    rw [hsplit] at h
    obtain ⟨number, hnumber, h⟩ := Formula.bind_eq_ok.mp h
    obtain ⟨hne, hletters, row, htrim, hdigits⟩ := split?_eq_some hsplit
    by_cases hzero : number = 0
    · rw [if_pos hzero] at h
      cases h
    · rw [if_neg hzero] at h
      cases h
      have hvalue := writtenNumber_of_integerOfDigits hnumber
      have hlabel := Address.label_columnIndex hne hletters
      rw [Address.label, if_neg (Int.not_lt.mpr haddressable.col_nonneg)] at hlabel
      refine ⟨letters, row, digits, natDigits number, ⟨htrim, hne, hletters, hdigits⟩,
        hvalue ▸ natDigits_isPlainNumeral hzero, ?_⟩
      rw [address_of_addressable haddressable, spelling]
      dsimp only at hlabel ⊢
      rw [Int.sub_add_cancel, Int.toNat_natCast, String.ofList_append, Except.ok.inj hlabel,
        ← String.ofList_append]

end Coord

/-- Labels and columns correspond: a label is made of capitals and read back as its column, and
letters in any case are the label of a column, in upper case. So do addresses and cells, as far as
row numbers are not too long: an address is read back as its cell, no two cells share one, and the
address of the cell that a text names is the text without the blanks around it, its letters in upper
case and its row number in plain digits. -/
theorem labels_and_addresses :
    (∀ col : Nat, ∃ label, Address.label col = .ok label ∧ label.toList ≠ [] ∧
      (∀ x ∈ label.toList, isAsciiUpper x = true) ∧ Address.columnIndex label.toList = col) ∧
    (∀ letters, letters ≠ [] → (∀ x ∈ letters, isAsciiLetter x = true) →
      0 ≤ Address.columnIndex letters ∧
      Address.label (Address.columnIndex letters) = .ok (String.ofList (upper letters))) ∧
    (∀ c : Coord, c.Addressable → ∃ name, c.address = .ok name ∧ Coord.read name = .ok (some c)) ∧
    (∀ (c d : Coord) name, 0 ≤ c.row → 0 ≤ d.row → c.address = .ok name → d.address = .ok name →
      c = d) ∧
    ∀ text c, Coord.read text = .ok (some c) → ∃ letters row digits numeral,
      Coord.Spells text letters row digits ∧ IsPlainNumeral numeral (writtenNumber digits) ∧
      c.address = .ok (String.ofList (upper letters ++ numeral)) := by
  refine ⟨fun col => ?_, fun letters hne h => ?_, fun c hc => ?_,
    fun c d name hc hd hname hsame => ?_, fun text c h => Coord.address_of_read h⟩
  · refine ⟨String.ofList (Address.columnLabel col), Address.label_natCast col, ?_⟩
    rw [String.toList_ofList]
    exact ⟨Address.columnLabel_ne_nil col,
      fun x hx => Address.isAsciiUpper_of_mem_labelLetters hx, Address.columnIndex_columnLabel col⟩
  · exact ⟨Address.columnIndex_nonneg hne h, Address.label_columnIndex hne h⟩
  · exact ⟨_, Coord.address_of_addressable hc, Coord.read_spelling hc⟩
  · have hcell := Coord.addressable_of_address hc hname
    have hother := Coord.addressable_of_address hd hsame
    exact Coord.eq_of_address_eq hcell hother (hname.trans hsame.symm)

/-- A name in letters of both cases, with a nought in front, Arabic digits and blanks around it. -/
theorem labels_and_addresses_mixed :
    let text := "\u00a0aB0\u0661\u0662\t"
    let cell : Coord := ⟨11, 27⟩
    Address.label (Address.columnIndex ['a', 'B']) = .ok "AB" ∧
    (∃ name, cell.address = .ok name ∧ Coord.read name = .ok (some cell) ∧
      ∀ d : Coord, 0 ≤ d.row → d.address = .ok name → d = cell) ∧
    Coord.read text = .ok (some cell) ∧ ∃ letters row digits numeral,
      Coord.Spells text letters row digits ∧ IsPlainNumeral numeral (writtenNumber digits) ∧
      cell.address = .ok (String.ofList (upper letters ++ numeral)) := by
  intro text cell
  obtain ⟨-, hlabels, haddresses, hinjective, htexts⟩ := labels_and_addresses
  have hletters : ∀ x ∈ ['a', 'B'], isAsciiLetter x = true :=
    List.forall_mem_cons.mpr ⟨rfl, List.forall_mem_singleton.mpr rfl⟩
  have haddressable : cell.Addressable := by
    refine ⟨by decide, by decide, ?_⟩
    have hlimit : 10 ^ 2 ≤ 10 ^ digitLimit := Nat.pow_le_pow_right (by decide) (by decide)
    exact Nat.lt_of_lt_of_le (by decide : 12 < 10 ^ 2) hlimit
  have hread : Coord.read text = .ok (some cell) := by decide +kernel
  obtain ⟨name, hname, hback⟩ := haddresses cell haddressable
  refine ⟨(hlabels ['a', 'B'] (List.cons_ne_nil _ _) hletters).2, ⟨name, hname, hback, ?_⟩, hread,
    htexts text cell hread⟩
  intro d hrow hsame
  exact hinjective d cell name hrow (by decide) hsame hname

end Worksheet
