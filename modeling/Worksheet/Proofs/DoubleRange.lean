import Worksheet.Proofs.NearestDouble

/-!
The range of doubles. An integer has a nearest double just below the least magnitude that is rounded
out of range, and a quotient of whole numbers, which is the nearest double to the exact one, is
infinite only from there on.
-/
namespace Worksheet.Number

open Float.Model Float.Model.UnpackedFloat

section Range
variable {m : Nat}

/-- A whole number is rounded with as many places behind it as there is room for. -/
theorem round_eq (s : UnpackedFloat.Sign) (m : Nat) : ∃ j : Nat,
    UnpackedFloat.round .binary64 s m 0 =
        roundWithAccuracy .binary64 s (m * 2 ^ j) (-(j : Int)) .exact ∧
      j = 52 - m.log2 := by
  refine ⟨(0 - Format.binary64.targetExponent (totalExponent m 0)).toNat, ?_, ?_⟩
  · unfold UnpackedFloat.round decreaseExponent
    dsimp only
    rw [Nat.shiftLeft_eq, Int.zero_sub, Int.zero_sub]
  · rw [targetExponent_eq]
    unfold totalExponent
    omega

theorem isFinite_pack_round (hm : 0 < m) (s : UnpackedFloat.Sign) :
    (Float.Model.pack (UnpackedFloat.round .binary64 s m 0)).isFinite = true ↔ m < doubleBound := by
  obtain ⟨j, hround, hj⟩ := round_eq s m
  have hlies : Lies (m * 2 ^ j) ((m : ℚ) / 2 ^ (-(j : Int))) .exact := by
    change _ = _
    rw [zpow_neg, div_inv_eq_mul, zpow_natCast]
    push_cast
    rfl
  have hexponent :
      -(j : Int) ≤ Format.binary64.targetExponent (totalExponent (m * 2 ^ j) (-(j : Int))) := by
    rw [targetExponent_eq]
    unfold totalExponent
    rw [log2_mul_two_pow hm]
    omega
  rw [hround, isFinite_pack_roundWithAccuracy hlies hexponent]
  exact Nat.cast_lt

/-- An integer has a nearest double just below the bound. -/
theorem nearest?_eq_none_iff (n : Int) : nearest? n = none ↔ doubleBound ≤ n.natAbs := by
  have hfinite : (Float.ofModel (.ofInt n)).isFinite = true ↔ n.natAbs < doubleBound := by
    change (Float.Model.pack (UnpackedFloat.ofInt .binary64 n)).isFinite = true ↔ _
    unfold UnpackedFloat.ofInt UnpackedFloat.normalize
    split
    · rename_i hsign
      have hn : n < 0 := Int.compare_eq_lt.mp hsign
      rw [isFinite_pack_round (by omega)]
      omega
    · rename_i hsign
      have hn : n = 0 := Int.compare_eq_eq.mp hsign
      subst hn
      exact iff_of_true (by decide +kernel) doubleBound_pos
    · rename_i hsign
      have hn : 0 < n := Int.compare_eq_gt.mp hsign
      rw [isFinite_pack_round (by omega)]
      omega
  unfold nearest?
  dsimp only
  split
  · rename_i h
    have hlt := hfinite.mp h
    simp only [reduceCtorEq, false_iff]
    omega
  · rename_i h
    rw [hfinite] at h
    simp only [true_iff]
    omega

/-- A quotient of whole numbers is rounded to the nearest double. -/
theorem isNearest_nearestQuotient {num den : Nat} (hnum : 0 < num) (hden : 0 < den) :
    IsNearest (nearestQuotient num den) (num / den) := by
  unfold nearestQuotient
  rw [dif_pos hnum, dif_pos hden]
  have hnearest := isNearest_div 0 0 hnum hden
  rwa [zpow_zero, mul_one, mul_one] at hnearest

theorem isFinite_of_isInf {x : Float} (h : x.isInf = true) : x.isFinite = false := by
  change (Float.Model.unpack x.toModel).isInf = true at h
  change (Float.Model.unpack x.toModel).isFinite = false
  generalize Float.Model.unpack x.toModel = u at *
  cases u with
  | infinity s => rfl
  | notANumber => cases h
  | zero s => cases h
  | finite s m e hm => cases h

/-- A quotient is infinite only when it reaches the bound. -/
theorem le_of_isInf_nearestQuotient {num den : Nat} (h : (nearestQuotient num den).isInf = true) :
    doubleBound * den ≤ num := by
  have hfinite := isFinite_of_isInf h
  by_cases hpos : 0 < num ∧ 0 < den
  · obtain ⟨hnum, hden⟩ := hpos
    have hnearest := isNearest_nearestQuotient hnum hden
    have hden' : (0 : ℚ) < den := by exact_mod_cast hden
    by_contra hlt
    have hbound : |(num : ℚ) / den| < doubleBound := by
      rw [abs_of_nonneg (by positivity), div_lt_iff₀ hden']
      exact_mod_cast Nat.lt_of_not_le hlt
    rw [hnearest.isFinite_iff.mpr hbound] at hfinite
    cases hfinite
  · have hzero : nearestQuotient num den = 0 := by
      unfold nearestQuotient
      split
      · split
        · exact absurd ⟨‹_›, ‹_›⟩ hpos
        · rfl
      · rfl
    have hnought : (0 : Float).isFinite = true := by decide +kernel
    rw [hzero, hnought] at hfinite
    cases hfinite

end Range

end Worksheet.Number
