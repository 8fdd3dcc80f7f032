import Worksheet.Proofs.PackedDoubles

/-!
Rounding to a mantissa of 53 bits. A number is taken in units of the last place that its double has
room for, and goes to the nearest whole number, a half to the even neighbour. A mantissa carries two
bits behind it, which say enough of what has been shifted out of it for this to be exact.
-/
namespace Worksheet.Number

open Float.Model Float.Model.UnpackedFloat

/-! ### Rounded numbers -/

/-- A whole number is nearest to a number, and it is the even one of two that are equally near. -/
structure IsRounded (r : Nat) (w : ℚ) : Prop where
  near : |(r : ℚ) - w| ≤ 1 / 2
  even : |(r : ℚ) - w| = 1 / 2 → Even r

/-- Where a number lies between a whole number and the next one. -/
def Lies (m : Nat) (w : ℚ) : Accuracy → Prop
  | .exact => w = m
  | .inexact .lt => m < w ∧ w < m + 1 / 2
  | .inexact .eq => w = m + 1 / 2
  | .inexact .gt => m + 1 / 2 < w ∧ w < m + 1

/-- What a mantissa and the two bits behind it say of a number. -/
def Represents (em : ExtendedMantissa) (w : ℚ) : Prop := Lies em.mantissa w em.accuracy

section Rounding
variable {em : ExtendedMantissa} {r : Nat} {w : ℚ} {n : ℤ}

/-- Two whole numbers are at least one apart, also by way of another number. -/
theorem one_le_abs_sub_add (hne : n ≠ r) : 1 ≤ |(n : ℚ) - w| + |(r : ℚ) - w| := by
  have hone : (1 : ℚ) ≤ |(n : ℚ) - r| := by
    exact_mod_cast Int.one_le_abs (sub_ne_zero.mpr hne)
  calc (1 : ℚ) ≤ |(n : ℚ) - r| := hone
    _ ≤ |(n : ℚ) - w| + |w - r| := abs_sub_le _ _ _
    _ = |(n : ℚ) - w| + |(r : ℚ) - w| := by rw [abs_sub_comm w]

/-- No other whole number is nearer. -/
theorem IsRounded.le (h : IsRounded r w) (n : ℤ) : |(r : ℚ) - w| ≤ |(n : ℚ) - w| := by
  by_cases heq : n = r
  · rw [heq, Int.cast_natCast]
  · have hapart := one_le_abs_sub_add (w := w) heq
    have hnear := h.near
    linarith only [hapart, hnear]

/-- Only a half is equally near to another whole number. -/
theorem IsRounded.even_of_eq (h : IsRounded r w) (hne : n ≠ r)
    (heq : |(r : ℚ) - w| = |(n : ℚ) - w|) : Even r := by
  have hapart := one_le_abs_sub_add (w := w) hne
  exact h.even (le_antisymm h.near (by linarith only [hapart, heq]))

theorem Represents.bounds (h : Represents em w) : em.mantissa ≤ w ∧ w < em.mantissa + 1 := by
  obtain ⟨m, round, sticky⟩ := em
  cases round <;> cases sticky <;>
    simp only [Represents, ExtendedMantissa.accuracy, Lies] at h <;> constructor <;> linarith

theorem IsRounded.of_lt (h : |(r : ℚ) - w| < 1 / 2) : IsRounded r w :=
  ⟨h.le, fun heq => absurd heq h.ne⟩

theorem Represents.isRounded (h : Represents em w) : IsRounded em.roundedMantissa w := by
  obtain ⟨m, _ | _, _ | _⟩ := em
  · apply IsRounded.of_lt
    change |(m : ℚ) - w| < 1 / 2
    rw [show w = m from h, sub_self, abs_zero]
    norm_num
  · apply IsRounded.of_lt
    obtain ⟨hlower, hupper⟩ : (m : ℚ) < w ∧ w < m + 1 / 2 := h
    change |(m : ℚ) - w| < 1 / 2
    rw [abs_lt]
    constructor <;> linarith
  · -- The half goes to the even neighbour.
    have hw : w = m + 1 / 2 := h
    change IsRounded (m + m % 2) w
    have hdistance : |((m + m % 2 : ℕ) : ℚ) - w| = 1 / 2 := by
      rcases Nat.mod_two_eq_zero_or_one m with hm | hm
      · rw [hm, hw]
        norm_num
      · rw [hm, hw]
        norm_num
    refine ⟨hdistance.le, fun _ => ?_⟩
    rw [Nat.even_iff]
    omega
  · apply IsRounded.of_lt
    obtain ⟨hlower, hupper⟩ : (m : ℚ) + 1 / 2 < w ∧ w < m + 1 := h
    change |((m + 1 : ℕ) : ℚ) - w| < 1 / 2
    push_cast
    rw [abs_lt]
    constructor <;> linarith

theorem Represents.shiftRightOne (h : Represents em w) : Represents em.shiftRightOne (w / 2) := by
  obtain ⟨m, round, sticky⟩ := em
  have hsplit : ((m % 2 : ℕ) : ℚ) + 2 * ((m / 2 : ℕ) : ℚ) = m := by
    exact_mod_cast Nat.mod_add_div m 2
  change Represents ⟨m / 2, m % 2 != 0, round || sticky⟩ (w / 2)
  rcases Nat.mod_two_eq_zero_or_one m with hm | hm
  · -- The last bit of the mantissa is not set, so nothing of it counts a half.
    rw [hm, Nat.cast_zero, zero_add] at hsplit
    rw [hm]
    cases round <;> cases sticky <;>
      simp only [Represents, ExtendedMantissa.accuracy, Lies, ← hsplit, bne_self_eq_false,
        Bool.or_false, Bool.or_true] at h ⊢
    · linarith
    · constructor <;> linarith
    · constructor <;> linarith
    · constructor <;> linarith
  · have hbit : (1 != 0) = true := rfl
    rw [hm, Nat.cast_one] at hsplit
    rw [hm, hbit]
    cases round <;> cases sticky <;>
      simp only [Represents, ExtendedMantissa.accuracy, Lies, ← hsplit, Bool.or_false,
        Bool.or_true] at h ⊢
    · linarith
    · constructor <;> linarith
    · constructor <;> linarith
    · constructor <;> linarith

theorem Represents.shiftRight (h : Represents em w) (k : Nat) :
    Represents (em >>> k) (w / 2 ^ k) := by
  induction k with
  | zero =>
    rw [pow_zero, div_one]
    exact h
  | succ k ih =>
    rw [pow_succ, ← div_div]
    exact ih.shiftRightOne

end Rounding

/-! ### Shifting -/

section Shifting
variable {s : UnpackedFloat.Sign} {m r k : Nat} {e : Int} {accuracy : Accuracy} {w : ℚ}

theorem mantissa_shiftRight (em : ExtendedMantissa) (k : Nat) :
    (em >>> k).mantissa = em.mantissa / 2 ^ k := by
  induction k with
  | zero => exact (Nat.div_one _).symm
  | succ k ih =>
    change (em >>> k).mantissa / 2 = _
    rw [ih, Nat.div_div_eq_div_mul, Nat.pow_succ]

theorem mantissa_ofMantissaAndAccuracy (m : Nat) (accuracy : Accuracy) :
    (ExtendedMantissa.ofMantissaAndAccuracy m accuracy).mantissa = m := by
  cases accuracy with
  | exact => rfl
  | inexact o => cases o <;> rfl

theorem targetExponent_eq (e : Int) : Format.binary64.targetExponent e = max (e - 53) (-1074) := rfl

/-- By how many places a mantissa is shifted to the right so that 53 bits of it are left. -/
def shiftOf (m : Nat) (e : Int) : Nat :=
  (Format.binary64.targetExponent (totalExponent m e) - e).toNat

theorem shiftOf_of_lt (hm : m < 2 ^ 53) (he : -1074 ≤ e) : shiftOf m e = 0 := by
  have hlog : m.log2 ≤ 52 := by
    by_cases hzero : m = 0
    · rw [hzero]
      decide
    · exact Nat.le_of_lt_succ ((Nat.log2_lt hzero).mpr hm)
  unfold shiftOf totalExponent
  rw [targetExponent_eq]
  omega

theorem shiftOf_two_pow (he : -1074 ≤ e) : shiftOf (2 ^ 53) e = 1 := by
  unfold shiftOf totalExponent
  rw [targetExponent_eq, Nat.log2_two_pow]
  omega

theorem lt_of_shift (m : Nat) (e : Int) : m < 2 ^ (53 + shiftOf m e) := by
  have hlog : (m.log2 : Int) ≤ 52 + shiftOf m e := by
    unfold shiftOf totalExponent
    rw [targetExponent_eq]
    omega
  exact Nat.lt_of_lt_of_le Nat.lt_log2_self (Nat.pow_le_pow_right (by decide) (by omega))

/-- What is left of a mantissa after it has been shifted and rounded. -/
def roundedOf (m : Nat) (e : Int) (accuracy : Accuracy) : Nat :=
  (ExtendedMantissa.ofMantissaAndAccuracy m accuracy >>> shiftOf m e).roundedMantissa

/-- The double of a rounded mantissa, which is shifted once more when it has grown to 54 bits. -/
def ofRounded (s : UnpackedFloat.Sign) (r : Nat) (e : Int) : UnpackedFloat :=
  if h : r = 0 then .zero s
  else if r < 2 ^ 53 then .finite s r e (Nat.pos_of_ne_zero h)
  else .finite s (2 ^ 52) (e + 1) (Nat.two_pow_pos 52)

/-- A number in units of the last place of its double. -/
structure Scaled (w : ℚ) (e : Int) : Prop where
  le_exponent : -1074 ≤ e
  lt : w < 2 ^ 53
  normal : 2 ^ 52 ≤ w ∨ e = -1074

theorem IsRounded.le_of_le {n : Nat} (h : IsRounded r w) (hn : (n : ℚ) ≤ w) : n ≤ r := by
  have hnear := (abs_le.mp h.near).1
  by_contra hlt
  have hcast : (r : ℚ) + 1 ≤ n := by exact_mod_cast Nat.lt_of_not_le hlt
  linarith

theorem IsRounded.le_of_lt {n : Nat} (h : IsRounded r w) (hn : w < n) : r ≤ n := by
  have hnear := (abs_le.mp h.near).2
  by_contra hlt
  have hcast : (n : ℚ) + 1 ≤ r := by exact_mod_cast Nat.lt_of_not_le hlt
  linarith

/-- Half way below an even number the numbers begin that are rounded to it. -/
theorem IsRounded.lt_iff {n : Nat} (h : IsRounded r w) (hn : Even n) :
    r < n ↔ w < n - 1 / 2 := by
  have hnear := abs_le.mp h.near
  constructor
  · intro hlt
    have hle : (r : ℚ) + 1 ≤ n := by exact_mod_cast hlt
    by_contra hge
    have hsucc : (r : ℚ) + 1 = n := by linarith
    have hhalf : (r : ℚ) - w = -(1 / 2) := by linarith
    have heven := h.even (by rw [hhalf, abs_neg, abs_of_pos one_half_pos])
    have hn' : n = r + 1 := by exact_mod_cast hsucc.symm
    rw [hn', Nat.even_add_one] at hn
    exact hn heven
  · intro hlt
    have hcast : (r : ℚ) < n := by linarith
    exact_mod_cast hcast

theorem Lies.represents (h : Lies m w accuracy) :
    Represents (.ofMantissaAndAccuracy m accuracy) w := by
  cases accuracy with
  | exact => exact h
  | inexact o => cases o <;> exact h

/-- A mantissa with enough bits is shifted to the last place of its double. -/
theorem scaled_shift (hw : Lies m w accuracy)
    (he : e ≤ Format.binary64.targetExponent (totalExponent m e)) :
    Scaled (w / 2 ^ shiftOf m e) (e + shiftOf m e) := by
  have hshift : e + shiftOf m e = max ((m.log2 : Int) + 1 + e - 53) (-1074) := by
    unfold shiftOf totalExponent at *
    rw [targetExponent_eq] at *
    omega
  have hpos : (0 : ℚ) < 2 ^ shiftOf m e := by positivity
  have hbounds := hw.represents.bounds
  rw [mantissa_ofMantissaAndAccuracy] at hbounds
  refine ⟨by omega, ?_, ?_⟩
  · have hlt : ((m + 1 : ℕ) : ℚ) ≤ 2 ^ 53 * 2 ^ shiftOf m e := by
      rw [← pow_add]
      exact_mod_cast lt_of_shift m e
    rw [div_lt_iff₀ hpos]
    push_cast at hlt
    linarith [hbounds.2]
  · by_cases hleast : e + shiftOf m e = -1074
    · exact .inr hleast
    · left
      have hlog : m.log2 = 52 + shiftOf m e := by omega
      have hm : m ≠ 0 := by
        rintro rfl
        have hzero : (0 : Nat).log2 = 0 := rfl
        omega
      have hle : (2 : ℚ) ^ 52 * 2 ^ shiftOf m e ≤ m := by
        rw [← pow_add, ← hlog]
        exact_mod_cast Nat.log2_self_le hm
      rw [le_div_iff₀ hpos]
      linarith [hbounds.1]

theorem isRounded_roundedOf (hw : Lies m w accuracy) :
    IsRounded (roundedOf m e accuracy) (w / 2 ^ shiftOf m e) :=
  (hw.represents.shiftRight _).isRounded

theorem roundWithAccuracy_eq (s : UnpackedFloat.Sign)
    (hw : Lies m w accuracy)
    (he : e ≤ Format.binary64.targetExponent (totalExponent m e)) :
    roundWithAccuracy .binary64 s m e accuracy =
      ofRounded s (roundedOf m e accuracy) (e + shiftOf m e) := by
  have hfirst : roundWithAccuracy .binary64 s m e accuracy =
      let rest := roundedOf m e accuracy
      let k := shiftOf rest (e + shiftOf m e)
      if h : (ExtendedMantissa.ofMantissaAndAccuracy rest .exact >>> k).mantissa = 0 then .zero s
      else .finite s _ (e + shiftOf m e + k) (Nat.pos_of_ne_zero h) := rfl
  have hscaled := scaled_shift hw he
  have hle : roundedOf m e accuracy ≤ 2 ^ 53 :=
    (isRounded_roundedOf hw).le_of_lt (by exact_mod_cast hscaled.lt)
  rw [hfirst]
  generalize roundedOf m e accuracy = rest at hle ⊢
  generalize e + shiftOf m e = e' at hscaled ⊢
  dsimp only
  by_cases hlt : rest < 2 ^ 53
  · have hshift := shiftOf_of_lt hlt hscaled.le_exponent
    simp only [hshift, mantissa_shiftRight, mantissa_ofMantissaAndAccuracy, Nat.pow_zero,
      Nat.div_one, ofRounded, hlt, if_true, Nat.cast_zero, add_zero]
  · obtain rfl : rest = 2 ^ 53 := by omega
    have hshift := shiftOf_two_pow hscaled.le_exponent
    simp only [hshift, mantissa_shiftRight, mantissa_ofMantissaAndAccuracy, ofRounded, hlt,
      if_false]
    rfl

end Shifting

end Worksheet.Number
