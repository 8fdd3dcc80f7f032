import Mathlib.Data.List.Basic
import Worksheet.Log.Journal
import Worksheet.Proofs.CellNames

/-!
JSON on a line. The text of a document has printable ASCII characters only, whatever stands in the
document, so it holds no line break, its bytes are its characters, and decoding gives them back; and
texts that were written one to a line are read as the same lines.
-/
namespace Worksheet

open Text

/-! ### Printable characters -/

/-- An ASCII character other than a control character. -/
def IsPrintable (c : Char) : Prop := 32 ≤ c.toNat ∧ c.toNat < 127

instance (c : Char) : Decidable (IsPrintable c) := inferInstanceAs (Decidable (_ ∧ _))

/-- Characters that are all printable. -/
def Printable (cs : List Char) : Prop := ∀ c ∈ cs, IsPrintable c

instance (cs : List Char) : Decidable (Printable cs) := List.decidableBAll IsPrintable cs

variable {c : Char} {cs cs' : List Char}

@[simp] theorem printable_nil : Printable [] := List.forall_mem_nil _

@[simp] theorem printable_cons : Printable (c :: cs) ↔ IsPrintable c ∧ Printable cs :=
  List.forall_mem_cons

@[simp] theorem printable_append : Printable (cs ++ cs') ↔ Printable cs ∧ Printable cs' :=
  List.forall_mem_append

theorem Printable.subset (h : Printable cs) (hsubset : cs' ⊆ cs) : Printable cs' :=
  fun c hc => h c (hsubset hc)

theorem Printable.isAscii (h : Printable cs) : ∀ c ∈ cs, c.toNat < 128 := by
  intro c hc
  have hrange := h c hc
  unfold IsPrintable at hrange
  omega

/-- Printable text breaks no line. -/
theorem Printable.isLineBreak (h : Printable cs) : ∀ c ∈ cs, isLineBreak c = false := by
  intro c hc
  have hrange := h c hc
  unfold IsPrintable at hrange
  unfold Text.isLineBreak
  simp
  omega

theorem isPrintable_of_isAsciiDigit (h : isAsciiDigit c = true) : IsPrintable c := by
  simp only [isAsciiDigit, Bool.and_eq_true, decide_eq_true_eq] at h
  unfold IsPrintable
  omega

theorem printable_natDigits (n : Nat) : Printable (natDigits n) :=
  fun _ hc => isPrintable_of_isAsciiDigit (isAsciiDigit_of_mem_natDigits hc)

theorem isPrintable_hexDigit : ∀ n : Fin 16, IsPrintable (hexDigit n) := by
  decide +kernel

theorem printable_hexDigits (width n : Nat) : Printable (hexDigits width n) := by
  induction width generalizing n with
  | zero => exact printable_nil
  | succ width ih =>
    have hlast := isPrintable_hexDigit ⟨n % 16, Nat.mod_lt n (by decide)⟩
    exact printable_append.mpr ⟨ih (n / 16), List.forall_mem_singleton.mpr hlast⟩

theorem printable_intercalate {sep : List Char} {parts : List (List Char)} (hsep : Printable sep)
    (hparts : ∀ part ∈ parts, Printable part) : Printable (sep.intercalate parts) := by
  unfold List.intercalate
  induction parts with
  | nil => exact printable_nil
  | cons part rest ih =>
    obtain ⟨hpart, hrest⟩ := List.forall_mem_cons.mp hparts
    cases rest with
    | nil =>
      rw [List.intersperse_singleton, List.flatten_singleton]
      exact hpart
    | cons next rest =>
      rw [List.intersperse_cons_cons, List.flatten_cons, List.flatten_cons, printable_append,
        printable_append]
      exact ⟨hpart, hsep, ih hrest⟩

/-! ### Numbers -/

namespace Number

theorem printable_significant (d : Decimal) : Printable d.significant.1 := by
  unfold Decimal.significant
  dsimp only
  split
  · decide
  · apply (printable_natDigits d.coefficient).subset
    intro c hc
    have hkept := (List.dropWhile_sublist _).subset (List.mem_reverse.mp hc)
    exact List.mem_reverse.mp hkept

theorem printable_zeros (n : Nat) : Printable (zeros n) := by
  intro c hc
  rw [List.eq_of_mem_replicate hc]
  decide

section Layout
variable {digits : List Char}

theorem printable_positional (h : Printable digits) (point : Int) :
    Printable (positional digits point) := by
  have hdot : IsPrintable '.' := by decide
  have hnought : IsPrintable '0' := by decide
  unfold positional
  dsimp only
  split
  · exact printable_append.mpr ⟨by simp [hdot, hnought, printable_zeros], h⟩
  · split
    · simp [hdot, hnought, printable_zeros, h]
    · rw [printable_append, printable_cons]
      exact ⟨h.subset (List.take_subset _ digits), hdot, h.subset (List.drop_subset _ digits)⟩

theorem printable_exponentText (exponent : Int) : Printable (exponentText exponent) := by
  have hdigits := printable_natDigits exponent.natAbs
  unfold exponentText
  dsimp only
  refine printable_cons.mpr ⟨?_, ?_⟩
  · split
    · decide
    · decide
  · split
    · exact printable_cons.mpr ⟨by decide, hdigits⟩
    · exact hdigits

theorem printable_scientific (h : Printable digits) (point : Int) :
    Printable (scientific digits point) := by
  have hfraction : Printable (digits.drop 1) := h.subset (List.drop_subset 1 digits)
  unfold scientific
  dsimp only
  rw [printable_append, printable_append, printable_cons]
  refine ⟨⟨h.subset (List.take_subset 1 digits), ?_⟩, by decide, printable_exponentText _⟩
  split
  · exact printable_nil
  · exact printable_cons.mpr ⟨by decide, hfraction⟩

end Layout

theorem printable_floatText (x : Float) : Printable (floatText x).toList := by
  unfold floatText FloatLayout.render
  cases decode? x with
  | none =>
    dsimp only
    split
    · decide
    · split
      · decide
      · decide
  | some b =>
    have hdigits := printable_significant b.shortest
    have hbody (body : List Char) (hbody : Printable body) :
        Printable (if b.negative then '-' :: body else body) := by
      split
      · exact printable_cons.mpr ⟨by decide, hbody⟩
      · exact hbody
    dsimp only
    rw [String.toList_ofList]
    apply hbody
    split
    · exact printable_positional hdigits _
    · exact printable_scientific hdigits _

end Number

theorem printable_integerText {n : Int} {text : String} (h : integerText n = .ok text) :
    Printable text.toList := by
  have hdigits := printable_natDigits n.natAbs
  unfold integerText at h
  dsimp only at h
  split at h
  · cases h
  · cases h
    rw [String.toList_ofList]
    split
    · exact printable_cons.mpr ⟨by decide, hdigits⟩
    · exact hdigits

/-! ### Documents -/

namespace Json

theorem printable_unicodeEscape (n : Nat) : Printable (unicodeEscape n) := by
  unfold unicodeEscape
  rw [printable_cons, printable_cons]
  exact ⟨by decide, by decide, printable_hexDigits 4 n⟩

theorem printable_charText (c : Char) : Printable (charText c) := by
  unfold charText
  dsimp only
  split_ifs with hquoted _ _ _ _ _ hrange _
  · simp only [Bool.or_eq_true, beq_iff_eq] at hquoted
    rcases hquoted with rfl | rfl
    · decide
    · decide
  · decide
  · decide
  · decide
  · decide
  · decide
  · simp only [Bool.and_eq_true, decide_eq_true_eq] at hrange
    exact printable_cons.mpr ⟨hrange, printable_nil⟩
  · exact printable_unicodeEscape _
  · exact printable_append.mpr ⟨printable_unicodeEscape _, printable_unicodeEscape _⟩

theorem printable_stringText (s : String) : Printable (stringText s).toList := by
  unfold stringText
  rw [String.toList_ofList, printable_append, printable_cons]
  refine ⟨⟨by decide, ?_⟩, by decide⟩
  intro c hc
  obtain ⟨d, -, hd⟩ := List.mem_flatMap.mp hc
  exact printable_charText d c hd

theorem printable_floatText (x : Float) : Printable (floatText x).toList := by
  unfold floatText
  split
  · decide
  · split
    · split
      · decide
      · decide
    · exact Number.printable_floatText x

/-- A text without anything to escape stands between quotes as it is. -/
theorem stringText_of_plain {s : String} (h : s.toList.flatMap charText = s.toList) :
    stringText s = "\"" ++ s ++ "\"" := by
  apply String.toList_inj.mp
  unfold stringText
  rw [h, String.toList_ofList, String.toList_append, String.toList_append]
  rfl

/-- On one line the items of a list or record stand between its brackets, with commas. -/
theorem toList_enclose (level : Nat) (opening closing : String) (items : List String) :
    (enclose .line level opening closing items).toList =
      opening.toList ++ [',', ' '].intercalate (items.map String.toList) ++ closing.toList := by
  unfold enclose
  cases items with
  | nil =>
    rw [List.isEmpty_nil, if_pos rfl, String.toList_append, List.map_nil, List.intercalate_nil,
      List.append_nil]
  | cons item rest =>
    rw [if_neg (by simp)]
    dsimp only [Layout.line]
    rw [String.toList_append, String.toList_append, String.toList_intercalate]
    rfl

theorem printable_enclose {level : Nat} {opening closing : String} {items : List String}
    (hopening : Printable opening.toList) (hclosing : Printable closing.toList)
    (hitems : ∀ item ∈ items, Printable item.toList) :
    Printable (enclose .line level opening closing items).toList := by
  rw [toList_enclose, printable_append, printable_append]
  refine ⟨⟨hopening, printable_intercalate (by decide) ?_⟩, hclosing⟩
  intro part hpart
  obtain ⟨item, hitem, rfl⟩ := List.mem_map.mp hpart
  exact hitems item hitem

theorem mem_sortFields {fields : List (String × String)} {field : String × String} :
    field ∈ sortFields fields ↔ field ∈ fields := List.mem_mergeSort

mutual
/-- The text of a document on one line is printable. -/
theorem printable_render (v : Value) (level : Nat) {text : String}
    (h : render .line level v = .ok text) : Printable text.toList := by
  cases v with
  | null =>
    cases h
    decide
  | bool b =>
    cases h
    cases b
    · decide
    · decide
  | int n => exact printable_integerText h
  | float x =>
    cases h
    exact printable_floatText x
  | text s =>
    cases h
    exact printable_stringText s
  | error code =>
    cases h
    exact printable_stringText code.text
  | list items =>
    unfold render at h
    obtain ⟨texts, htexts, rfl⟩ := Formula.map_eq_ok.mp h
    exact printable_enclose (by decide) (by decide) (printable_renderAll items (level + 1) htexts)
  | record fields =>
    unfold render at h
    obtain ⟨parts, hparts, hclosed⟩ := Formula.bind_eq_ok.mp h
    cases hclosed
    apply printable_enclose (by decide) (by decide)
    intro item hitem
    obtain ⟨part, hpart, rfl⟩ := List.mem_map.mp hitem
    have hvalue := printable_renderFields fields (level + 1) hparts part (mem_sortFields.mp hpart)
    rw [String.toList_append, String.toList_append, printable_append, printable_append]
    exact ⟨⟨printable_stringText part.1, by decide⟩, hvalue⟩

theorem printable_renderAll (items : List Value) (level : Nat) {texts : List String}
    (h : renderAll .line level items = .ok texts) : ∀ text ∈ texts, Printable text.toList := by
  cases items with
  | nil =>
    cases h
    exact List.forall_mem_nil _
  | cons v rest =>
    unfold renderAll at h
    obtain ⟨text, htext, h⟩ := Formula.bind_eq_ok.mp h
    obtain ⟨texts, htexts, h⟩ := Formula.bind_eq_ok.mp h
    cases h
    exact List.forall_mem_cons.mpr
      ⟨printable_render v level htext, printable_renderAll rest level htexts⟩

theorem printable_renderFields (fields : List (String × Value)) (level : Nat)
    {parts : List (String × String)} (h : renderFields .line level fields = .ok parts) :
    ∀ part ∈ parts, Printable part.2.toList := by
  cases fields with
  | nil =>
    cases h
    exact List.forall_mem_nil _
  | cons field rest =>
    unfold renderFields at h
    obtain ⟨text, htext, h⟩ := Formula.bind_eq_ok.mp h
    obtain ⟨parts, hparts, h⟩ := Formula.bind_eq_ok.mp h
    cases h
    exact List.forall_mem_cons.mpr
      ⟨printable_render field.2 level htext, printable_renderFields rest level hparts⟩
end

/-- The text of a record on one line stands between braces. -/
theorem exists_braces {fields : List (String × Value)} {text : String}
    (h : Json.text .line (.record fields) = .ok text) :
    ∃ inside, text.toList = '\x7b' :: (inside ++ ['\x7d']) := by
  unfold Json.text render at h
  obtain ⟨parts, hparts, hclosed⟩ := Formula.bind_eq_ok.mp h
  cases hclosed
  exact ⟨_, toList_enclose 0 "\x7b" "\x7d" _⟩

end Json

/-! ### Bytes -/

namespace Text

/-- The byte of an ASCII character. -/
def byteOf (c : Char) : UInt8 := UInt8.ofNat c.toNat

theorem toNat_byteOf (h : c.toNat < 128) : (byteOf c).toNat = c.toNat := by
  unfold byteOf
  rw [UInt8.toNat_ofNat', Nat.mod_eq_of_lt (by omega)]

theorem toList_loop (bytes : ByteArray) (i : Nat) (seen : List UInt8) :
    ByteArray.toList.loop bytes i seen = seen.reverse ++ bytes.data.toList.drop i := by
  induction i, seen using ByteArray.toList.loop.induct bytes with
  | case1 i seen hi ih =>
    have hlength : i < bytes.data.toList.length := hi
    have hget : bytes.get! i = bytes.data.toList[i] := getElem!_pos bytes.data i hi
    rw [ByteArray.toList.loop, if_pos hi, ih, hget, List.drop_eq_getElem_cons hlength,
      List.reverse_cons, List.append_assoc]
    rfl
  | case2 i seen hi =>
    have hlength : bytes.data.toList.length ≤ i := Nat.le_of_not_lt hi
    rw [ByteArray.toList.loop, if_neg hi, List.drop_of_length_le hlength, List.append_nil]

/-- ASCII characters are written as their own bytes. -/
theorem encodeUtf8_ofList (h : ∀ c ∈ cs, c.toNat < 128) :
    encodeUtf8 (String.ofList cs) = cs.map byteOf := by
  have hchar (c : Char) (hc : c.toNat < 128) : String.utf8EncodeChar c = [byteOf c] := by
    unfold String.utf8EncodeChar
    exact if_pos (Nat.le_of_lt_succ hc)
  have hbytes : (String.ofList cs).toUTF8.data.toList = cs.flatMap String.utf8EncodeChar := by
    change (String.ofList cs).toByteArray.data.toList = _
    rw [String.toByteArray_ofList, List.utf8Encode, List.toList_data_toByteArray]
  unfold encodeUtf8 ByteArray.toList
  rw [toList_loop, hbytes, List.drop_zero, List.reverse_nil, List.nil_append,
    List.map_eq_flatMap]
  exact List.flatMap_congr fun c hc => hchar c (h c hc)

/-- Bytes of ASCII characters decode to these. -/
theorem decodeUtf8_bytes (h : ∀ c ∈ cs, c.toNat < 128) : decodeUtf8 (cs.map byteOf) = cs := by
  have hfrom (seen : List Char) : decodeFrom none seen (cs.map byteOf) = seen.reverse ++ cs := by
    induction cs generalizing seen with
    | nil => exact (List.append_nil _).symm
    | cons c rest ih =>
      obtain ⟨hc, hrest⟩ := List.forall_mem_cons.mp h
      have hread : readByte none (byteOf c).toNat seen = (none, c :: seen) := by
        unfold readByte startByte
        rw [toNat_byteOf hc, if_pos hc, Char.ofNat_toNat]
      rw [List.map_cons, decodeFrom, hread]
      apply (ih hrest (c :: seen)).trans
      rw [List.reverse_cons, List.append_assoc]
      rfl
  exact hfrom []

/-! ### Lines -/

/-- Characters that break no line go on with it. -/
theorem linesFrom_append (h : ∀ c ∈ cs, isLineBreak c = false) (rest line : List Char)
    (seen : List (List Char)) :
    linesFrom (cs ++ rest) line seen = linesFrom rest (cs.reverse ++ line) seen := by
  induction cs generalizing line with
  | nil => rfl
  | cons c behind ih =>
    obtain ⟨hc, hbehind⟩ := List.forall_mem_cons.mp h
    have hreturn : c ≠ '\r' := by
      rintro rfl
      exact absurd hc (by decide)
    have hstep : linesFrom (c :: (behind ++ rest)) line seen =
        linesFrom (behind ++ rest) (c :: line) seen := by
      rw [linesFrom, if_neg (by rw [hc]; exact Bool.false_ne_true)]
      exact fun _ heq _ => hreturn heq
    rw [List.cons_append, hstep, ih hbehind, List.reverse_cons, List.append_assoc]
    rfl

/-- Texts without line breaks, one to a line, are the lines. -/
theorem lines_flatMap {texts : List (List Char)} (h : ∀ text ∈ texts, Printable text) :
    lines (texts.flatMap (· ++ ['\n'])) = texts := by
  have hfrom (seen : List (List Char)) :
      linesFrom (texts.flatMap (· ++ ['\n'])) [] seen = seen.reverse ++ texts := by
    induction texts generalizing seen with
    | nil => exact (List.append_nil _).symm
    | cons text rest ih =>
      obtain ⟨htext, hrest⟩ := List.forall_mem_cons.mp h
      have hbreak : linesFrom ('\n' :: rest.flatMap (· ++ ['\n'])) (text.reverse ++ []) seen =
          linesFrom (rest.flatMap (· ++ ['\n'])) [] (text :: seen) := by
        rw [linesFrom, if_pos (by decide), List.append_nil, List.reverse_reverse]
        exact fun _ heq _ => absurd heq (by decide)
      rw [List.flatMap_cons, List.append_assoc, linesFrom_append htext.isLineBreak]
      apply hbreak.trans
      rw [ih hrest, List.reverse_cons, List.append_assoc]
      rfl
  exact hfrom []

end Text
end Worksheet
