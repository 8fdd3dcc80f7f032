import Worksheet.Json.Reader

/-!
The limits of reading JSON. A text that does not read is refused for a wrong character, or it goes
beyond the limits: it nests deeper than allowed, or it holds a number with more digits than numbers
may have. For either it must be long, so a short text never goes beyond them.
-/
namespace Worksheet.Json

open Text

/-- How a text of some length, with so many levels left, goes beyond the limits. -/
inductive Excess (depth length : Nat) : Fault → Prop
  | levels (h : depth < length) : Excess depth length .nestedTooDeep
  | digits {n : Nat} (h : digitLimit < n) (hlength : n ≤ length) :
      Excess depth length (.tooManyDigits (some n))

/-- What reading at the front of a text of some length comes to: it leaves no more than there was,
or meets a wrong character, or goes beyond the limits. -/
inductive Outcome {α : Type} (depth length : Nat) : Read α → Prop
  | read {a : α} {rest : List Char} (h : rest.length ≤ length) : Outcome depth length (.ok (a, rest))
  | wrong (reason : Reason) (unread : Nat) : Outcome depth length (.error (.wrong reason unread))
  | beyond {f : Fault} (h : Excess depth length f) : Outcome depth length (.error (.beyond f))

variable {α β : Type} {depth depth' length length' : Nat} {f : Fault} {cs : List Char} {r : Read α}

theorem Excess.mono (h : Excess depth length f) (hdepth : depth' + length ≤ depth + length')
    (hlength : length ≤ length') : Excess depth' length' f := by
  cases h with
  | levels h => exact .levels (by omega)
  | digits h hn => exact .digits h (by omega)

namespace Outcome

theorem mono (h : Outcome depth length r) (hdepth : depth' + length ≤ depth + length')
    (hlength : length ≤ length') : Outcome depth' length' r := by
  cases h with
  | read h => exact .read (Nat.le_trans h hlength)
  | wrong reason unread => exact .wrong reason unread
  | beyond h => exact .beyond (h.mono hdepth hlength)

/-- A longer text leaves more room. -/
theorem longer (h : Outcome depth length r) (hlength : length ≤ length') :
    Outcome depth length' r := h.mono (by omega) hlength

theorem map (h : Outcome depth length r) (g : α → β) :
    Outcome depth length (Except.map (fun read : α × List Char => (g read.1, read.2)) r) := by
  cases h with
  | read h => exact .read h
  | wrong reason unread => exact .wrong reason unread
  | beyond h => exact .beyond h

/-- What stops a reading stops what goes on behind it. -/
theorem error (h : Outcome depth length r) {halt : Halt} (hr : r = .error halt) :
    Outcome depth length (.error halt : Read β) := by
  cases h with
  | read h => cases hr
  | wrong reason unread =>
    cases hr
    exact .wrong reason unread
  | beyond h =>
    cases hr
    exact .beyond h

theorem length_le (h : Outcome depth length r) {a : α} {rest : List Char}
    (hr : r = .ok (a, rest)) : rest.length ≤ length := by
  cases h with
  | read h =>
    cases hr
    exact h
  | wrong reason unread => cases hr
  | beyond h => cases hr

end Outcome

theorem length_skipGap (cs : List Char) : (skipGap cs).length ≤ cs.length :=
  (List.dropWhile_suffix isGap).length_le

/-! ### Strings -/

theorem length_unicodeUnit? {n : Nat} {rest : List Char} (h : unicodeUnit? cs = some (n, rest)) :
    rest.length ≤ cs.length := by
  unfold unicodeUnit? at h
  split at h
  · split at h
    · cases h
    · simp only [Option.bind_eq_bind, Option.bind_eq_some_iff] at h
      obtain ⟨_, -, _, -, _, -, _, -, h⟩ := h
      cases h
      simp only [List.length_cons]
      omega
  · cases h

theorem length_lowSurrogate? {n : Nat} {rest : List Char}
    (h : lowSurrogate? cs = some (.ok (n, rest))) : rest.length ≤ cs.length := by
  unfold lowSurrogate? at h
  split at h
  · split at h
    · cases h
    · split at h
      · cases h
      · rename_i behind _ _ _ hunit
        have hlength := length_unicodeUnit? hunit
        split at h
        · cases h
          simp only [List.length_cons]
          omega
        · cases h
  · cases h

theorem outcome_escapeAt (depth : Nat) (cs : List Char) :
    Outcome depth cs.length (escapeAt cs) := by
  unfold escapeAt
  split
  · rename_i rest
    split
    · exact .wrong _ _
    · rename_i high behind hunit
      have hlength : behind.length ≤ ('u' :: rest).length :=
        Nat.le_succ_of_le (length_unicodeUnit? hunit)
      split
      · split
        · exact .read hlength
        · exact .wrong _ _
        · rename_i low further hlow
          exact .read (Nat.le_trans (length_lowSurrogate? hlow) hlength)
      · exact .read hlength
  · split
    · exact .read (Nat.le_succ _)
    · exact .wrong _ _
  · exact .wrong _ _

theorem outcome_stringFrom (depth opening tries : Nat) (cs seen : List Char) :
    Outcome depth cs.length (stringFrom opening tries cs seen) := by
  induction tries generalizing cs seen with
  | zero =>
    unfold stringFrom
    exact .wrong _ _
  | succ tries ih =>
    cases cs with
    | nil =>
      unfold stringFrom
      exact .wrong _ _
    | cons c rest =>
      have hlength : rest.length ≤ (c :: rest).length := Nat.le_succ _
      unfold stringFrom
      split
      · exact .read hlength
      · split
        · split
          · exact .wrong _ _
          · have hescape := (outcome_escapeAt depth rest).longer hlength
            split
            · rename_i hread
              exact hescape.error hread
            · rename_i c behind hread
              exact (ih behind (c :: seen)).longer (hescape.length_le hread)
        · split
          · exact .wrong _ _
          · exact (ih rest (c :: seen)).longer hlength

theorem outcome_string (depth : Nat) (cs : List Char) : Outcome depth cs.length (string cs) :=
  outcome_stringFrom depth (cs.length + 1) (cs.length + 1) cs []

/-! ### Numbers and names -/

theorem length_integerDigits (cs : List Char) :
    (integerDigits cs).1.length ≤ cs.length ∧ (integerDigits cs).2.length ≤ cs.length := by
  unfold integerDigits
  split
  · simp
  · exact ⟨(List.takeWhile_prefix isAsciiDigit).length_le,
      (List.dropWhile_suffix isAsciiDigit).length_le⟩

theorem length_fractionPart (cs : List Char) : (fractionPart cs).2.length ≤ cs.length := by
  unfold fractionPart
  split
  · rename_i rest
    dsimp only
    split
    · exact Nat.le_refl _
    · exact Nat.le_succ_of_le (List.dropWhile_suffix isAsciiDigit).length_le
  · exact Nat.le_refl _

theorem length_exponentPart (cs : List Char) : (exponentPart cs).2.length ≤ cs.length := by
  unfold exponentPart
  split
  · split
    · dsimp only
      split
      · rw [List.length_drop, List.length_cons]
        omega
      · exact Nat.le_refl _
    · exact Nat.le_refl _
  · exact Nat.le_refl _

theorem outcome_numberAt (depth : Nat) (start : List Char) :
    Outcome depth start.length (numberAt start) := by
  unfold numberAt
  split
  rename_i negative unsigned hsign
  have hunsigned : unsigned.length ≤ start.length := by
    split at hsign
    · cases hsign
      exact Nat.le_succ _
    · cases hsign
      exact Nat.le_refl _
  have hdigits := length_integerDigits unsigned
  split
  rename_i digits behind hread
  rw [hread] at hdigits
  have hfraction := length_fractionPart behind
  split
  · exact .wrong _ _
  · split
    rename_i fraction rest hread
    rw [hread] at hfraction
    have hexponent := length_exponentPart rest
    split
    rename_i exponent rest' hread
    rw [hread] at hexponent
    have hrest : rest'.length ≤ start.length := by
      dsimp only at hdigits hfraction hexponent
      omega
    split
    · split
      · exact .read hrest
      · rename_i f hnumber
        obtain ⟨hmany, rfl⟩ := integerOfDigits_eq_error hnumber
        rw [List.length_map] at hmany ⊢
        exact .beyond (.digits hmany (Nat.le_trans hdigits.1 hunsigned))
    · split
      · exact .read hrest
      · exact .wrong _ _

theorem length_named? {name : String} {v w : Value} {rest : List Char}
    (h : named? name v cs = some (w, rest)) : rest.length ≤ cs.length := by
  unfold named? at h
  split at h
  · cases h
    rw [List.length_drop]
    exact Nat.sub_le _ _
  · cases h

theorem length_nameAt? {v : Value} {rest : List Char} (h : nameAt? cs = some (v, rest)) :
    rest.length ≤ cs.length := by
  unfold nameAt? at h
  simp only [Option.orElse_eq_orElse, Option.orElse_eq_or, Option.or_eq_some_iff] at h
  rcases h with h | ⟨-, h | ⟨-, h | ⟨-, h | ⟨-, h | ⟨-, h⟩⟩⟩⟩⟩
  all_goals exact length_named? h

theorem outcome_scalarAt (depth : Nat) (cs : List Char) :
    Outcome depth cs.length (scalarAt cs) := by
  unfold scalarAt
  split
  · rename_i rest
    exact ((outcome_string depth rest).longer (Nat.le_succ _)).map Value.text
  · split
    · rename_i r hname
      exact .read (length_nameAt? hname)
    · exact outcome_numberAt depth cs

/-! ### Lists and records -/

variable {item : List Char → Read Value}

theorem outcome_itemsFrom (hitem : ∀ cs, Outcome depth cs.length (item cs)) (tries : Nat)
    (cs : List Char) (seen : List Value) :
    Outcome depth cs.length (itemsFrom item tries cs seen) := by
  induction tries generalizing cs seen with
  | zero => exact .wrong _ _
  | succ tries ih =>
    unfold itemsFrom
    split
    · rename_i hread
      exact (hitem cs).error hread
    · rename_i v rest hread
      have hrest := (hitem cs).length_le hread
      have hgap := length_skipGap rest
      split
      · rename_i behind hskip
        rw [hskip, List.length_cons] at hgap
        exact .read (by omega)
      · rename_i behind hskip
        rw [hskip, List.length_cons] at hgap
        have hbehind := length_skipGap behind
        exact (ih (skipGap behind) (v :: seen)).longer (by omega)
      · exact .wrong _ _

theorem outcome_listAt (hitem : ∀ cs, Outcome depth cs.length (item cs)) (cs : List Char) :
    Outcome depth cs.length (listAt item cs) := by
  have hgap := length_skipGap cs
  unfold listAt
  split
  · rename_i rest hskip
    rw [hskip, List.length_cons] at hgap
    exact .read (by omega)
  · exact (outcome_itemsFrom hitem _ _ []).longer hgap

theorem outcome_fieldAt (hitem : ∀ cs, Outcome depth cs.length (item cs)) (cs : List Char) :
    Outcome depth cs.length (fieldAt item cs) := by
  unfold fieldAt
  split
  · rename_i rest
    have hname := (outcome_string depth rest).longer (Nat.le_succ rest.length)
    split
    · rename_i hread
      exact hname.error hread
    · rename_i name behind hread
      have hbehind := hname.length_le hread
      have hgap := length_skipGap behind
      split
      · rename_i further hskip
        rw [hskip, List.length_cons] at hgap
        have hfurther := length_skipGap further
        exact ((hitem (skipGap further)).longer (by simp only [List.length_cons]; omega)).map
          fun v => (name, v)
      · exact .wrong _ _
  · exact .wrong _ _

theorem outcome_fieldsFrom (hitem : ∀ cs, Outcome depth cs.length (item cs)) (tries : Nat)
    (cs : List Char) (seen : List (String × Value)) :
    Outcome depth cs.length (fieldsFrom item tries cs seen) := by
  induction tries generalizing cs seen with
  | zero => exact .wrong _ _
  | succ tries ih =>
    unfold fieldsFrom
    split
    · rename_i hread
      exact (outcome_fieldAt hitem cs).error hread
    · rename_i name v rest hread
      have hrest := (outcome_fieldAt hitem cs).length_le hread
      have hgap := length_skipGap rest
      split
      · rename_i behind hskip
        rw [hskip, List.length_cons] at hgap
        exact .read (by omega)
      · rename_i behind hskip
        rw [hskip, List.length_cons] at hgap
        have hbehind := length_skipGap behind
        exact (ih (skipGap behind) _).longer (by omega)
      · exact .wrong _ _

theorem outcome_recordAt (hitem : ∀ cs, Outcome depth cs.length (item cs)) (cs : List Char) :
    Outcome depth cs.length (recordAt item cs) := by
  have hgap := length_skipGap cs
  unfold recordAt
  split
  · rename_i rest hskip
    rw [hskip, List.length_cons] at hgap
    exact .read (by omega)
  · exact (outcome_fieldsFrom hitem _ _ []).longer hgap

/-! ### Values -/

theorem outcome_valueAt (depth : Nat) (cs : List Char) :
    Outcome depth cs.length (valueAt depth cs) := by
  induction depth generalizing cs with
  | zero =>
    unfold valueAt
    split
    · exact .beyond (.levels (Nat.succ_pos _))
    · exact .beyond (.levels (Nat.succ_pos _))
    · exact outcome_scalarAt 0 cs
  | succ depth ih =>
    unfold valueAt
    split
    · rename_i rest
      exact (outcome_listAt ih rest).mono (by simp only [List.length_cons]; omega) (Nat.le_succ _)
    · rename_i rest
      exact (outcome_recordAt ih rest).mono (by simp only [List.length_cons]; omega) (Nat.le_succ _)
    · exact outcome_scalarAt (depth + 1) cs

/-- A text goes beyond the limits only when it is long. -/
theorem excess_of_document (h : document depth cs = .error (.beyond f)) :
    Excess depth cs.length f := by
  have hgap := length_skipGap cs
  unfold document at h
  split at h
  · cases h
  · have houtcome := (outcome_valueAt depth (skipGap cs)).longer hgap
    split at h
    · rename_i halt hvalue
      cases h
      rw [hvalue] at houtcome
      cases houtcome with
      | beyond hexcess => exact hexcess
    · dsimp only at h
      split at h
      · cases h
      · cases h

end Worksheet.Json
