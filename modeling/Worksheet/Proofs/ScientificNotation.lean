import Worksheet.Number.Numeral
import Worksheet.Proofs.DoubleRange

/-!
Scientific notation. A whole number with a power of ten is read as the nearest double, on the short
way, where the whole number and the power are doubles themselves, and on the long one, where they
are rounded at once; so the double of a decimal is the nearest one, and it is infinite just when the
decimal is out of range.
-/
namespace Worksheet.Number

open Float.Model Float.Model.UnpackedFloat

section Notation
variable {m n : Nat} {e : Int}

/-! ### Short numbers -/

/-- A whole number of at most 53 bits is a double as it stands. -/
theorem round_eq_finite (s : UnpackedFloat.Sign) (hm : 0 < m) (hlt : m < 2 ^ 53) :
    ∃ (p : Nat) (e : Int) (hp : 0 < p), UnpackedFloat.round .binary64 s m 0 = .finite s p e hp ∧
      (p : ℚ) * 2 ^ e = m ∧ Canonical p e ∧ e ≤ 0 ∧ 2 ^ 52 ≤ p := by
  obtain ⟨j, hround, hj⟩ := round_eq s m
  have hlog := log2_mul_two_pow hm j
  have hlog52 : m.log2 ≤ 52 := Nat.le_of_lt_succ ((Nat.log2_lt hm.ne').mpr hlt)
  have hpos : 0 < m * 2 ^ j := Nat.mul_pos hm (Nat.two_pow_pos j)
  obtain ⟨hbits, hlt'⟩ := (Nat.log2_eq_iff (k := 52) hpos.ne').mp (by omega)
  have hshift := shiftOf_of_lt hlt' (e := -(j : Int)) (by omega)
  have hrounded : roundedOf (m * 2 ^ j) (-(j : Int)) .exact = m * 2 ^ j := by
    unfold roundedOf
    rw [hshift]
    rfl
  have hexponent :
      -(j : Int) ≤ Format.binary64.targetExponent (totalExponent (m * 2 ^ j) (-(j : Int))) := by
    rw [targetExponent_eq]
    unfold totalExponent
    omega
  have hlies : Lies (m * 2 ^ j) ((m * 2 ^ j : ℕ) : ℚ) .exact := rfl
  refine ⟨m * 2 ^ j, -(j : Int), hpos, ?_, ?_, ⟨hlt', by omega, .inl hbits⟩, by omega, hbits⟩
  · rw [hround, roundWithAccuracy_eq s hlies hexponent, hrounded, hshift, Nat.cast_zero, add_zero]
    unfold ofRounded
    rw [dif_neg hpos.ne', if_pos hlt']
  · rw [Nat.cast_mul, Nat.cast_pow, Nat.cast_ofNat, zpow_neg, zpow_natCast, mul_assoc,
      mul_inv_cancel₀ (pow_ne_zero j two_ne_zero), mul_one]

theorem unpack_toFloat (hm : 0 < m) (hlt : m < 2 ^ 53) : ∃ (p : Nat) (e : Int) (hp : 0 < p),
    Float.Model.unpack m.toUInt64.toFloat.toModel = .finite .positive p e hp ∧
      (p : ℚ) * 2 ^ e = m ∧ 2 ^ 52 ≤ p := by
  obtain ⟨p, e, hp, hround, hvalue, hcanonical, he, hbits⟩ := round_eq_finite .positive hm hlt
  have hmodel : m.toUInt64.toFloat.toModel =
      Float.Model.pack (UnpackedFloat.normalize .binary64 m 0 .positive) := by
    have hnat : m.toUInt64.toNat = m := by
      rw [Nat.toUInt64, UInt64.toNat_ofNat']
      omega
    change Float.Model.pack
      (UnpackedFloat.normalize .binary64 (m.toUInt64.toNat : Int) 0 .positive) = _
    rw [hnat]
  have hcompare : compare (m : Int) 0 = .gt := Int.compare_eq_gt.mpr (by omega)
  have hnormalize : UnpackedFloat.normalize .binary64 m 0 .positive =
      .finite .positive p e hp := by
    unfold UnpackedFloat.normalize
    rw [hcompare]
    exact hround
  refine ⟨p, e, hp, ?_, hvalue, hbits⟩
  rw [hmodel, hnormalize]
  exact unpack_pack_finite hcanonical (by omega)

theorem two_zpow_eq_div (e : Int) : (2 : ℚ) ^ e = 2 ^ e.toNat / 2 ^ (-e).toNat := by
  rw [← zpow_natCast, ← zpow_natCast, ← zpow_sub₀ two_ne_zero]
  congr 1
  omega

theorem powersOfTen_exact : ∀ i : Fin Float.exactlyRepresentablePowersOfTen.size,
    (match Float.Model.unpack Float.exactlyRepresentablePowersOfTen[i].toModel with
    | .finite .positive p e _ => p * 2 ^ e.toNat == 10 ^ i.val * 2 ^ (-e).toNat
    | _ => false) = true := by decide +kernel

theorem unpack_powerOfTen (h : n < Float.exactlyRepresentablePowersOfTen.size) :
    ∃ (p : Nat) (e : Int) (hp : 0 < p),
      Float.Model.unpack Float.exactlyRepresentablePowersOfTen[n].toModel =
        .finite .positive p e hp ∧ (p : ℚ) * 2 ^ e = 10 ^ n := by
  have hn := powersOfTen_exact ⟨n, h⟩
  dsimp only at hn
  split at hn
  · rename_i p e hp heq
    refine ⟨p, e, hp, heq, ?_⟩
    rw [two_zpow_eq_div, mul_div_assoc', div_eq_iff (by positivity)]
    exact_mod_cast beq_iff_eq.mp hn
  · cases hn

theorem unpack_toFloat_zero :
    Float.Model.unpack (0 : Nat).toUInt64.toFloat.toModel = .zero .positive := by
  have hmodel : (0 : Nat).toUInt64.toFloat.toModel = .pack (.zero .positive) := by decide +kernel
  rw [hmodel]
  exact unpack_pack_zero .positive

/-- A short whole number over a short power of ten is the nearest double to the quotient. -/
theorem isNearest_toFloat_div (hm : m < 2 ^ 53)
    (hn : n < Float.exactlyRepresentablePowersOfTen.size) :
    IsNearest (m.toUInt64.toFloat / Float.exactlyRepresentablePowersOfTen[n]) (m / 10 ^ n) := by
  obtain ⟨q, e', hq, hpower, hten⟩ := unpack_powerOfTen hn
  change IsNearest (.ofModel (.pack (UnpackedFloat.div .binary64
    (Float.Model.unpack m.toUInt64.toFloat.toModel) (Float.Model.unpack _)))) _
  rw [hpower]
  by_cases hzero : m = 0
  · subst hzero
    rw [unpack_toFloat_zero, Nat.cast_zero, zero_div]
    exact isNearest_zero le_rfl (two_zpow_pos _)
  · obtain ⟨p, e, hp, hunpack, hwhole, -⟩ := unpack_toFloat (Nat.pos_of_ne_zero hzero) hm
    have hnearest := isNearest_div e e' hp hq
    rw [hunpack]
    rwa [hwhole, hten] at hnearest

theorem isNearest_toFloat_mul (hm : m < 2 ^ 53)
    (hn : n < Float.exactlyRepresentablePowersOfTen.size) :
    IsNearest (m.toUInt64.toFloat * Float.exactlyRepresentablePowersOfTen[n]) (m * 10 ^ n) := by
  obtain ⟨q, e', hq, hpower, hten⟩ := unpack_powerOfTen hn
  change IsNearest (.ofModel (.pack (UnpackedFloat.mul .binary64
    (Float.Model.unpack m.toUInt64.toFloat.toModel) (Float.Model.unpack _)))) _
  rw [hpower]
  by_cases hzero : m = 0
  · subst hzero
    rw [unpack_toFloat_zero, Nat.cast_zero, zero_mul]
    exact isNearest_zero le_rfl (two_zpow_pos _)
  · obtain ⟨p, e, hp, hunpack, hwhole, hbits⟩ := unpack_toFloat (Nat.pos_of_ne_zero hzero) hm
    have hnearest := isNearest_mul e e' hp hq hbits
    rw [hunpack]
    rwa [hwhole, hten] at hnearest

/-! ### Long numbers -/

theorem doubleBound_lt : (doubleBound : ℚ) < 2 ^ (1024 : ℤ) := by
  have hpower : (2 : ℚ) ^ (1024 : ℤ) = 2 ^ 53 * 2 ^ (971 : ℤ) := by
    rw [show (1024 : ℤ) = 53 + 971 from rfl, zpow_add₀ two_ne_zero]
    rfl
  rw [doubleBound_eq, hpower]
  exact mul_lt_mul_of_pos_right (by norm_num) (two_zpow_pos 971)

theorem two_zpow_le_ten_zpow (h : 0 ≤ e) : (2 : ℚ) ^ e ≤ 10 ^ e := by
  obtain ⟨k, rfl⟩ := Int.eq_ofNat_of_zero_le h
  rw [zpow_natCast, zpow_natCast]
  exact pow_le_pow_left₀ zero_le_two (by norm_num) k

theorem ten_zpow_le_two_zpow (h : e ≤ 0) : (10 : ℚ) ^ e ≤ 2 ^ e := by
  rw [← neg_neg e, zpow_neg, zpow_neg 2]
  exact inv_anti₀ (two_zpow_pos _) (two_zpow_le_ten_zpow (by omega))

/-- Beyond this exponent every number is out of range. -/
theorem doubleBound_le (hm : 0 < m) (he : 2048 < e) : (doubleBound : ℚ) ≤ m * 10 ^ e := by
  have hone : (1 : ℚ) ≤ m := by exact_mod_cast hm
  calc (doubleBound : ℚ) ≤ 2 ^ (1024 : ℤ) := doubleBound_lt.le
    _ ≤ 2 ^ e := zpow_le_zpow_right₀ one_le_two (by omega)
    _ ≤ 10 ^ e := two_zpow_le_ten_zpow (by omega)
    _ = 1 * 10 ^ e := (one_mul _).symm
    _ ≤ m * 10 ^ e := mul_le_mul_of_nonneg_right hone (by positivity)

/-- Below this exponent every number is rounded to nought. -/
theorem lt_two_zpow_of_lt (he : e < -(2048 + (m.log2 : Int))) :
    (m : ℚ) * 10 ^ e < 2 ^ (-1075 : ℤ) := by
  have hm : (m : ℚ) ≤ 2 ^ ((m.log2 + 1 : ℕ) : ℤ) := by
    rw [zpow_natCast]
    exact_mod_cast Nat.lt_log2_self.le
  calc m * (10 : ℚ) ^ e ≤ 2 ^ ((m.log2 + 1 : ℕ) : ℤ) * 2 ^ e :=
        mul_le_mul hm (ten_zpow_le_two_zpow (by omega)) (by positivity) (by positivity)
    _ = 2 ^ ((m.log2 + 1 : ℕ) + e) := (zpow_add₀ two_ne_zero _ _).symm
    _ < 2 ^ (-1075 : ℤ) := zpow_lt_zpow_right₀ one_lt_two (by omega)

/-- The conversion of scientific notation rounds to the nearest double. -/
theorem isNearest_model_ofScientific (m : Nat) (e : Int) :
    IsNearest (.ofModel (.ofScientific m e)) (m * 10 ^ e) := by
  unfold Float.Model.ofScientific UnpackedFloat.ofScientific
  split
  · rename_i hzero
    rw [hzero, Nat.cast_zero, zero_mul]
    exact isNearest_zero le_rfl (two_zpow_pos _)
  · rename_i hm
    split
    · exact isNearest_infinity (doubleBound_le (Nat.pos_of_ne_zero hm) ‹_›)
    · split
      · exact isNearest_zero (by positivity) (lt_two_zpow_of_lt ‹_›)
      · split
        · rename_i hnonneg
          obtain ⟨k, rfl⟩ := Int.eq_ofNat_of_zero_le hnonneg
          have hbits : 2 ^ 52 ≤ m <<< 53 := by
            rw [Nat.shiftLeft_eq]
            omega
          have hpower : 0 < 10 ^ k := Nat.pow_pos (by decide)
          have hnearest := isNearest_mul (-53) 0 (Nat.lt_of_lt_of_le (by decide) hbits) hpower hbits
          have hvalue : ((m <<< 53 : ℕ) : ℚ) * 2 ^ (-53 : ℤ) * ((10 ^ k : ℕ) * 2 ^ (0 : ℤ)) =
              m * 10 ^ (k : ℤ) := by
            rw [Nat.shiftLeft_eq, zpow_neg, zpow_zero, zpow_natCast]
            push_cast
            field_simp
          rwa [hvalue] at hnearest
        · rename_i hneg
          obtain ⟨k, hk⟩ := Int.eq_ofNat_of_zero_le (show 0 ≤ -e by omega)
          have hpower : 0 < 10 ^ (-e).toNat := Nat.pow_pos (by decide)
          have hnearest := isNearest_div 0 0 (Nat.pos_of_ne_zero hm) hpower
          have hvalue : (m * 2 ^ (0 : ℤ) / ((10 ^ (-e).toNat : ℕ) * 2 ^ (0 : ℤ)) : ℚ) =
              m * 10 ^ e := by
            rw [hk, Int.toNat_natCast, ← neg_neg e, hk, zpow_neg, zpow_natCast, zpow_zero, mul_one,
              mul_one, div_eq_mul_inv, Nat.cast_pow, Nat.cast_ofNat]
          rwa [hvalue] at hnearest

/-- Scientific notation is read as the nearest double. -/
theorem isNearest_ofScientific (m : Nat) (e : Int) :
    IsNearest (Float.ofScientific m (decide (e < 0)) e.natAbs) (m * 10 ^ e) := by
  unfold Float.ofScientific
  by_cases he : e < 0
  · obtain ⟨k, rfl⟩ : ∃ k : Nat, e = -(k : Int) := ⟨e.natAbs, by omega⟩
    simp only [he, decide_true, if_true, Int.natAbs_neg, Int.natAbs_natCast]
    split
    · rename_i h
      rw [zpow_neg, zpow_natCast, ← div_eq_mul_inv]
      exact isNearest_toFloat_div h.1 (Nat.lt_succ_of_le h.2)
    · rw [Int.negOfNat_eq]
      exact isNearest_model_ofScientific m _
  · obtain ⟨k, rfl⟩ := Int.eq_ofNat_of_zero_le (Int.not_lt.mp he)
    simp only [he, decide_false, Bool.false_eq_true, if_false, Int.natAbs_natCast]
    split
    · rename_i h
      rw [zpow_natCast]
      exact isNearest_toFloat_mul h.1 (Nat.lt_succ_of_le h.2)
    · exact isNearest_model_ofScientific m _

/-! ### Decimals -/

/-- The number that a decimal is. -/
def Decimal.value (d : Decimal) : ℚ :=
  (if d.negative then -1 else 1) * d.coefficient * (10 : ℚ) ^ d.exponent

theorem Decimal.toFloat_eq (d : Decimal) : d.toFloat =
    if d.negative then
      -Float.ofScientific d.coefficient (decide (d.exponent < 0)) d.exponent.natAbs
    else Float.ofScientific d.coefficient (decide (d.exponent < 0)) d.exponent.natAbs := by
  unfold Decimal.toFloat
  by_cases he : d.exponent < 0
  · simp only [he, if_true, decide_true]
  · simp only [he, if_false, decide_false]

/-- The double of a decimal is the nearest one. -/
theorem Decimal.isNearest_toFloat (d : Decimal) : IsNearest d.toFloat d.value := by
  have hnearest := isNearest_ofScientific d.coefficient d.exponent
  rw [Decimal.toFloat_eq, Decimal.value]
  cases d.negative with
  | false =>
    rw [if_neg Bool.false_ne_true, if_neg Bool.false_ne_true, one_mul]
    exact hnearest
  | true =>
    rw [if_pos rfl, if_pos rfl, neg_one_mul, neg_mul]
    exact hnearest.neg

end Notation

end Worksheet.Number
