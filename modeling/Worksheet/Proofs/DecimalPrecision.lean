import Mathlib.Algebra.Ring.Nat
import Worksheet.Number.Precision

/-!
Decimals of 28 digits at a fixed number of places. A decimal that was rounded to the precision is
refused at a number of places exactly when its magnitude, counted in units of the last place,
reaches the first number with 29 digits; digits behind the last place never are the reason. For an
integer this bound is the same whether it had to be rounded before or not.
-/
namespace Worksheet.Number

open Text

variable {d : Decimal} {places : Nat} {f : Fault}

theorem digitCount_le_iff {n k : Nat} (hk : 0 < k) : digitCount n ≤ k ↔ n < 10 ^ k :=
  Nat.length_toDigits_le_iff (by decide) hk

theorem lt_pow_digitCount (n : Nat) : n < 10 ^ digitCount n := by
  have hpos : 0 < digitCount n := List.length_pos_iff.mpr Nat.toDigits_ne_nil
  exact (digitCount_le_iff hpos).mp (Nat.le_refl _)

theorem roundHalfEven_bounds (num den : Nat) :
    num / den ≤ roundHalfEven num den ∧ roundHalfEven num den ≤ num / den + 1 := by
  unfold roundHalfEven
  dsimp only
  split
  · omega
  · split
    · omega
    · omega

theorem roundHalfEven_one (n : Nat) : roundHalfEven n 1 = n := by
  unfold roundHalfEven
  rw [Nat.mod_one, Nat.div_one]
  rfl

namespace Decimal

/-! ### Rounding to the precision -/

theorem dropDigits_zero (d : Decimal) : d.dropDigits 0 = d := by
  have hround : roundHalfEven d.coefficient (Nat.pow 10 0) = d.coefficient := roundHalfEven_one _
  unfold dropDigits
  rw [hround, Int.natCast_zero, Int.add_zero]

/-- How many digits a decimal has too many. -/
def excess (d : Decimal) : Nat := digitCount d.coefficient - precision

theorem excess_of_lt (h : d.coefficient < 10 ^ precision) : d.excess = 0 :=
  Nat.sub_eq_zero_of_le ((digitCount_le_iff (by decide)).mpr h)

theorem limited_eq (d : Decimal) :
    d.limited = (d.dropDigits d.excess).dropDigits (d.dropDigits d.excess).excess := rfl

/-- A decimal that is within the precision is not rounded. -/
theorem limited_of_lt (h : d.coefficient < 10 ^ precision) : d.limited = d := by
  rw [limited_eq, excess_of_lt h, dropDigits_zero, excess_of_lt h, dropDigits_zero]

theorem digitCount_eq_of_le (h : 10 ^ precision ≤ d.coefficient) :
    digitCount d.coefficient = precision + d.excess ∧ 0 < d.excess := by
  have hmany : precision < digitCount d.coefficient := by
    rw [← Nat.not_le, digitCount_le_iff (by decide), Nat.not_lt]
    exact h
  unfold excess
  omega

/-- Rounding reaches the bound of the precision at most. -/
theorem coefficient_dropDigits_le (d : Decimal) :
    (d.dropDigits d.excess).coefficient ≤ 10 ^ precision := by
  by_cases h : d.coefficient < 10 ^ precision
  · rw [excess_of_lt h, dropDigits_zero]
    exact Nat.le_of_lt h
  · have hlt := lt_pow_digitCount d.coefficient
    rw [(digitCount_eq_of_le (Nat.le_of_not_lt h)).1, Nat.pow_add] at hlt
    have hquotient : d.coefficient / 10 ^ d.excess < 10 ^ precision :=
      Nat.div_lt_of_lt_mul (Nat.mul_comm _ _ ▸ hlt)
    exact Nat.le_trans (roundHalfEven_bounds _ _).2 hquotient

theorem limited_coefficient_lt (d : Decimal) : d.limited.coefficient < 10 ^ precision := by
  have hle := d.coefficient_dropDigits_le
  rw [limited_eq]
  by_cases hlt : (d.dropDigits d.excess).coefficient < 10 ^ precision
  · rw [excess_of_lt hlt, dropDigits_zero]
    exact hlt
  · -- rounded up to a digit more, which is a nought
    have heq : (d.dropDigits d.excess).coefficient = 10 ^ precision :=
      Nat.le_antisymm hle (Nat.le_of_not_lt hlt)
    have hexcess : (d.dropDigits d.excess).excess = 1 := by
      unfold excess at heq ⊢
      rw [heq]
      decide +kernel
    rw [hexcess]
    unfold dropDigits at heq ⊢
    dsimp only at heq ⊢
    rw [heq]
    decide +kernel

/-! ### Places -/

/-- In units of the last place a decimal has more digits than the precision. -/
def Overruns (d : Decimal) (places : Nat) : Prop :=
  0 ≤ d.exponent + places ∧ 10 ^ precision ≤ d.coefficient * 10 ^ (d.exponent + places).toNat

theorem not_overruns_zero (h : d.coefficient = 0) : ¬ d.Overruns places := by
  rintro ⟨-, hle⟩
  rw [h, Nat.zero_mul] at hle
  exact absurd hle (by decide)

/-- Digits that are rounded away leave no more than the precision. -/
theorem roundHalfEven_lt {n k : Nat} (h : n < 10 ^ precision) (hk : 0 < k) :
    roundHalfEven n (10 ^ k) < 10 ^ precision := by
  have hbound := (roundHalfEven_bounds n (10 ^ k)).2
  have hten : 10 ^ 1 ≤ 10 ^ k := Nat.pow_le_pow_right (by decide) hk
  have hquotient : n / 10 ^ k ≤ n / 10 := Nat.div_le_div_left hten (by decide)
  have hprecision : 10 ^ precision = 10 * 10 ^ 27 := by decide
  omega

/-- A decimal in units of the last place. -/
def inUnits (d : Decimal) (places : Nat) : Nat :=
  if 0 ≤ d.exponent + places then d.coefficient * 10 ^ (d.exponent + places).toNat
  else roundHalfEven d.coefficient (10 ^ (-(d.exponent + places)).toNat)

theorem le_inUnits_iff (h : d.coefficient < 10 ^ precision) :
    10 ^ precision ≤ d.inUnits places ↔ d.Overruns places := by
  unfold inUnits Overruns
  by_cases hshift : 0 ≤ d.exponent + places
  · rw [if_pos hshift, and_iff_right hshift]
  · have hrounded := roundHalfEven_lt (k := (-(d.exponent + places)).toNat) h (by omega)
    rw [if_neg hshift]
    exact ⟨fun hle => absurd hrounded (Nat.not_lt.mpr hle), fun hruns => absurd hruns.1 hshift⟩

theorem quantize_of_ne_zero (h : d.coefficient ≠ 0) (places : Nat) :
    d.quantize places = if digitCount (d.inUnits places) > precision then .error .decimalPrecision
      else .ok (d.inUnits places) :=
  if_neg (by simpa using h)

/-- A decimal is refused when it has more digits than the precision, and for no other reason. -/
theorem quantize_eq_error (h : d.coefficient < 10 ^ precision) :
    d.quantize places = .error f ↔ d.Overruns places ∧ f = .decimalPrecision := by
  by_cases hzero : d.coefficient = 0
  · have hnought : d.quantize places = .ok 0 := if_pos (beq_iff_eq.mpr hzero)
    rw [hnought]
    exact ⟨nofun, fun h => absurd h.1 (not_overruns_zero hzero)⟩
  · have hdigits : digitCount (d.inUnits places) > precision ↔ d.Overruns places := by
      rw [gt_iff_lt, ← Nat.not_le, digitCount_le_iff (by decide), Nat.not_lt, le_inUnits_iff h]
    rw [quantize_of_ne_zero hzero]
    by_cases hruns : d.Overruns places
    · rw [if_pos (hdigits.mpr hruns), Except.error.injEq, and_iff_right hruns, eq_comm]
    · rw [if_neg fun hlong => hruns (hdigits.mp hlong)]
      exact ⟨nofun, fun h => absurd h.1 hruns⟩

theorem Overruns.mono {more : Nat} (h : d.Overruns places) (hmore : places ≤ more) :
    d.Overruns more := by
  obtain ⟨hshift, hle⟩ := h
  have hpow : 10 ^ (d.exponent + places).toNat ≤ 10 ^ (d.exponent + more).toNat :=
    Nat.pow_le_pow_right (by decide) (by omega)
  exact ⟨by omega, Nat.le_trans hle (Nat.mul_le_mul_left _ hpow)⟩

/-- Rounding leaves a number that is beyond the precision beyond it. -/
theorem Overruns.dropDigits (h : d.Overruns 0) : (d.dropDigits d.excess).Overruns 0 := by
  by_cases hlt : d.coefficient < 10 ^ precision
  · rw [excess_of_lt hlt, dropDigits_zero]
    exact h
  · obtain ⟨hsplit, hexcess⟩ := digitCount_eq_of_le (Nat.le_of_not_lt hlt)
    have hleast : 10 ^ (27 + d.excess) ≤ d.coefficient := by
      rw [← Nat.not_lt, ← digitCount_le_iff (by omega), hsplit]
      unfold precision
      omega
    rw [Nat.pow_add] at hleast
    have hquotient : 10 ^ 27 ≤ d.coefficient / 10 ^ d.excess :=
      (Nat.le_div_iff_mul_le (Nat.pow_pos (by decide))).mpr hleast
    have hrounded := Nat.le_trans hquotient (roundHalfEven_bounds _ (10 ^ d.excess)).1
    -- 28 digits are left, and at least one nought behind them is dropped into the exponent
    have hshift : 0 ≤ d.exponent := by
      have hnonneg := h.1
      omega
    have hpow : 10 ^ 1 ≤ 10 ^ ((d.dropDigits d.excess).exponent + (0 : Nat)).toNat := by
      refine Nat.pow_le_pow_right (by decide) ?_
      unfold Decimal.dropDigits
      dsimp only
      omega
    refine ⟨?_, Nat.mul_le_mul hrounded hpow⟩
    unfold Decimal.dropDigits
    dsimp only
    omega

/-- An integer has too many digits at a number of places when it reaches the bound itself. -/
theorem overruns_limited_int (negative : Bool) (n places : Nat) :
    (limited ⟨negative, n, 0⟩).Overruns places ↔ 10 ^ precision ≤ n * 10 ^ places := by
  by_cases h : n < 10 ^ precision
  · rw [limited_of_lt h]
    unfold Overruns
    rw [Int.zero_add, Int.toNat_natCast]
    exact and_iff_right (Int.natCast_nonneg places)
  · have hle : 10 ^ precision ≤ n := Nat.le_of_not_lt h
    have hwhole : Overruns ⟨negative, n, 0⟩ 0 := by
      refine ⟨Int.le_refl 0, ?_⟩
      change 10 ^ precision ≤ n * 1
      omega
    refine ⟨fun _ => ?_, fun _ => (hwhole.dropDigits.dropDigits).mono (Nat.zero_le places)⟩
    exact Nat.le_trans hle (Nat.le_mul_of_pos_right n (Nat.pow_pos (by decide)))

end Decimal
end Worksheet.Number
