import Worksheet.Proofs.Rounding

/-!
The double nearest to a number. No finite double is nearer, and where another one is equally near
the mantissa is even; from the half between the greatest double and the power of two above it on the
double is infinite. A rounded mantissa gives the nearest double, for another double is either a
whole number in the same last place or lies below the power of two where that place begins.
-/
namespace Worksheet.Number

open Float.Model Float.Model.UnpackedFloat

/-- Half way between the greatest double and the power of two above it: the least magnitude that is
rounded out of range. -/
def doubleBound : Nat := (2 ^ 54 - 1) * 2 ^ 970

theorem doubleBound_pos : 0 < doubleBound := by
  unfold doubleBound
  positivity

/-- The double of a number: no double is nearer, the mantissa is even where another one is equally
near, and a number out of range has the infinity of its sign. -/
structure IsNearest (x : Float) (q : ℚ) : Prop where
  isFinite_iff : x.isFinite = true ↔ |q| < doubleBound
  eq_infinity : x.isFinite = false → x = if 0 < q then 1 / 0 else -(1 / 0)
  le {b c : Binary} {y : Float} (hb : decode? x = some b) (hc : decode? y = some c) :
    |b.value - q| ≤ |c.value - q|
  even {b c : Binary} {y : Float} (hb : decode? x = some b) (hc : decode? y = some c)
    (hne : c.value ≠ b.value) (heq : |b.value - q| = |c.value - q|) : Even b.mantissa
  sign {b : Binary} (hb : decode? x = some b) (hq : q ≠ 0) : b.negative = decide (q < 0)

/-! ### Powers of two -/

theorem two_zpow_pos (e : Int) : (0 : ℚ) < 2 ^ e := zpow_pos two_pos e

theorem two_zpow_succ (e : Int) : (2 : ℚ) ^ (e + 1) = 2 * 2 ^ e := by
  rw [zpow_add_one₀ two_ne_zero, mul_comm]

/-! ### Rounded mantissas -/

section Nearest
variable {x y : Float} {s : UnpackedFloat.Sign} {r : Nat} {e : Int} {v w : ℚ} {c : Binary}

theorem doubleBound_eq : (doubleBound : ℚ) = (2 ^ 53 - 1 / 2) * 2 ^ (971 : ℤ) := by
  have hpower : (2 : ℚ) ^ (971 : ℤ) = 2 * 2 ^ 970 := two_zpow_succ 970
  rw [doubleBound, hpower, Nat.cast_mul, Nat.cast_pow, Nat.cast_ofNat, ← mul_assoc]
  norm_num only

/-- The double of a rounded mantissa is in range. -/
def InRange (r : Nat) (e : Int) : Prop := r < 2 ^ 53 ∧ e < 972 ∨ e < 971

theorem Scaled.le_two_pow (hs : Scaled w e) (hr : IsRounded r w) : r ≤ 2 ^ 53 :=
  hr.le_of_lt (by exact_mod_cast hs.lt)

theorem Scaled.normal_of_isRounded (hs : Scaled w e) (hr : IsRounded r w) :
    2 ^ 52 ≤ r ∨ e = -1074 :=
  hs.normal.imp_left fun h => hr.le_of_le (by exact_mod_cast h)

theorem unpack_ofRounded (hs : Scaled w e) (hr : IsRounded r w) (h : InRange r e) :
    UnpackedFloat.unpack .binary64 (UnpackedFloat.pack .binary64 (ofRounded s r e)) =
      ofRounded s r e := by
  have hle := hs.le_two_pow hr
  have he := hs.le_exponent
  have hnormal := hs.normal_of_isRounded hr
  unfold ofRounded InRange at *
  split
  · exact unpack_pack_zero s
  · split
    · exact unpack_pack_finite ⟨‹_›, he, hnormal⟩ (by omega)
    · exact unpack_pack_finite ⟨by decide, by omega, .inl le_rfl⟩ (by omega)

theorem pack_ofRounded_of_not_inRange (hs : Scaled w e) (hr : IsRounded r w) (h : ¬ InRange r e) :
    UnpackedFloat.pack .binary64 (ofRounded s r e) = packedInfinity .binary64 s := by
  have hnormal := hs.normal_of_isRounded hr
  unfold ofRounded InRange at *
  split
  · omega
  · split
    · exact pack_eq_infinity (by omega)
    · exact pack_eq_infinity (by omega)

/-- Just the numbers below the bound are in range. -/
theorem inRange_iff (hs : Scaled w e) (hr : IsRounded r w) :
    InRange r e ↔ w * 2 ^ e < doubleBound := by
  have hpos := two_zpow_pos e
  rw [doubleBound_eq]
  rcases lt_trichotomy e 971 with hlt | rfl | hgt
  · refine iff_of_true (.inr hlt) ?_
    have hle : (2 : ℚ) ^ e ≤ 2 ^ (970 : ℤ) := zpow_le_zpow_right₀ one_le_two (by omega)
    calc w * 2 ^ e < 2 ^ 53 * 2 ^ e := mul_lt_mul_of_pos_right hs.lt hpos
      _ ≤ 2 ^ 53 * 2 ^ (970 : ℤ) := mul_le_mul_of_nonneg_left hle (by positivity)
      _ ≤ (2 ^ 53 - 1 / 2) * 2 ^ (971 : ℤ) := by
        rw [show (971 : ℤ) = 970 + 1 from rfl, two_zpow_succ, ← mul_assoc]
        exact mul_le_mul_of_nonneg_right (by norm_num) (two_zpow_pos 970).le
  · -- At the last exponent a mantissa is in range until it is rounded to the power of two.
    have heven : Even (2 ^ 53) := by decide
    have hlt := hr.lt_iff heven
    rw [Nat.cast_pow, Nat.cast_ofNat] at hlt
    rw [mul_lt_mul_iff_left₀ hpos, ← hlt]
    unfold InRange
    omega
  · refine iff_of_false (fun h => by unfold InRange at h; omega) (not_lt.mpr ?_)
    have hw : 2 ^ 52 ≤ w := hs.normal.resolve_right (by omega)
    have hle : (2 : ℚ) ^ (972 : ℤ) ≤ 2 ^ e := zpow_le_zpow_right₀ one_le_two (by omega)
    calc (2 ^ 53 - 1 / 2) * 2 ^ (971 : ℤ) ≤ 2 ^ 52 * 2 ^ (972 : ℤ) := by
          rw [show (972 : ℤ) = 971 + 1 from rfl, two_zpow_succ, ← mul_assoc]
          exact mul_le_mul_of_nonneg_right (by norm_num) (two_zpow_pos 971).le
      _ ≤ 2 ^ 52 * 2 ^ e := mul_le_mul_of_nonneg_left hle (by positivity)
      _ ≤ w * 2 ^ e := mul_le_mul_of_nonneg_right hw hpos.le

theorem abs_sub_mul (a w : ℚ) (e : Int) : |a * 2 ^ e - w * 2 ^ e| = |a - w| * 2 ^ e := by
  rw [← sub_mul, abs_mul, abs_of_pos (two_zpow_pos e)]

/-- A double is a whole number in the last place of another number, or it lies below that number's
power of two. -/
theorem value_cases (hc : decode? y = some c) (e : Int) :
    (∃ n : ℤ, c.value = n * 2 ^ e) ∨ e ≠ -1074 ∧ |c.value| < 2 ^ 52 * 2 ^ e := by
  obtain ⟨⟨hlt, hle, -⟩, -⟩ := canonical_of_decode? hc
  by_cases hexponent : e ≤ c.exponent
  · left
    obtain ⟨k, hk⟩ := Int.le.dest hexponent
    refine ⟨(if c.negative then -1 else 1) * c.mantissa * 2 ^ k, ?_⟩
    unfold Binary.value
    rw [← hk, zpow_add₀ two_ne_zero, zpow_natCast]
    push_cast
    ring
  · right
    refine ⟨by omega, ?_⟩
    have hmantissa : (c.mantissa : ℚ) < 2 ^ 53 := by exact_mod_cast hlt
    have hsign : |(if c.negative then -1 else 1 : ℚ)| = 1 := by
      split
      · rw [abs_neg, abs_one]
      · exact abs_one
    calc |c.value| = c.mantissa * 2 ^ c.exponent := by
          rw [Binary.value, abs_mul, abs_mul, hsign, one_mul, Nat.abs_cast,
            abs_of_pos (two_zpow_pos _)]
      _ < 2 ^ 53 * 2 ^ c.exponent := mul_lt_mul_of_pos_right hmantissa (two_zpow_pos _)
      _ = 2 ^ 52 * 2 ^ (c.exponent + 1) := by
        rw [two_zpow_succ]
        ring
      _ ≤ 2 ^ 52 * 2 ^ e :=
        mul_le_mul_of_nonneg_left (zpow_le_zpow_right₀ one_le_two (by omega)) (by positivity)

/-- No double is nearer to a number than the one that is rounded in the last place, and only a half
is as near to another. -/
theorem rounded_le (hs : Scaled w e) (hr : IsRounded r w) (hc : decode? y = some c) :
    |r * 2 ^ e - w * 2 ^ e| ≤ |c.value - w * 2 ^ e| ∧
      (c.value ≠ r * 2 ^ e → |r * 2 ^ e - w * 2 ^ e| = |c.value - w * 2 ^ e| → Even r) := by
  have hpos := two_zpow_pos e
  rcases value_cases hc e with ⟨n, hn⟩ | ⟨he, hlt⟩
  · rw [hn, abs_sub_mul, abs_sub_mul]
    refine ⟨mul_le_mul_of_nonneg_right (hr.le n) hpos.le, fun hne heq => ?_⟩
    refine hr.even_of_eq (n := n) ?_ (mul_right_cancel₀ hpos.ne' heq)
    rintro rfl
    exact hne (by rw [Int.cast_natCast])
  · -- The power of two lies between the other double and the number.
    have hw : 2 ^ 52 ≤ w := hs.normal.resolve_right he
    have hpower := hr.le (2 ^ 52)
    rw [Int.cast_pow, Int.cast_ofNat, abs_of_nonpos (sub_nonpos.mpr hw), neg_sub] at hpower
    have hstrict : |r * 2 ^ e - w * 2 ^ e| < |c.value - w * 2 ^ e| := by
      calc |r * 2 ^ e - w * 2 ^ e| = |(r : ℚ) - w| * 2 ^ e := abs_sub_mul _ _ _
        _ ≤ (w - 2 ^ 52) * 2 ^ e := mul_le_mul_of_nonneg_right hpower hpos.le
        _ < w * 2 ^ e - c.value := by
          rw [sub_mul]
          exact sub_lt_sub_left ((le_abs_self _).trans_lt hlt) _
        _ ≤ |c.value - w * 2 ^ e| := by
          rw [abs_sub_comm]
          exact le_abs_self _
    exact ⟨hstrict.le, fun _ heq => absurd heq hstrict.ne⟩

theorem binaryOf_ofRounded (h : r ≤ 2 ^ 53) (s : UnpackedFloat.Sign) (e : Int)
    (hzero : r = 0 → e = -1074) :
    ∃ b, binaryOf (ofRounded s r e) = some b ∧ b.negative = (s == .negative) ∧
      b.mantissa * (2 : ℚ) ^ b.exponent = r * 2 ^ e ∧ (Even r → Even b.mantissa) := by
  unfold ofRounded
  split
  · rename_i hr
    exact ⟨_, rfl, rfl, by simp [hr], fun _ => Even.zero⟩
  · split
    · exact ⟨_, rfl, rfl, rfl, id⟩
    · obtain rfl : r = 2 ^ 53 := by omega
      have heven : Even (2 ^ 52) := by decide
      refine ⟨_, rfl, rfl, ?_, fun _ => heven⟩
      dsimp only
      rw [two_zpow_succ]
      push_cast
      ring

/-- A number out of range has the infinite double. -/
theorem isNearest_infinity (hlarge : doubleBound ≤ v) :
    IsNearest (.ofModel (.pack (.infinity .positive))) v := by
  have hdecode : decode? (.ofModel (.pack (.infinity .positive))) = none := by decide +kernel
  have hbound : (0 : ℚ) < doubleBound := by exact_mod_cast doubleBound_pos
  have hpos : 0 < v := hbound.trans_le hlarge
  constructor
  case isFinite_iff =>
    rw [abs_of_pos hpos]
    exact iff_of_false (by decide +kernel) (not_lt.mpr hlarge)
  case eq_infinity =>
    intro _
    rw [if_pos hpos]
    decide +kernel
  case le =>
    intro b c y hb _
    cases hdecode.symm.trans hb
  case even =>
    intro b c y hb _ _ _
    cases hdecode.symm.trans hb
  case sign =>
    intro b hb _
    cases hdecode.symm.trans hb

/-- The double of a rounded mantissa is the nearest one. -/
theorem isNearest_ofRounded (hs : Scaled w e) (hr : IsRounded r w) (hw : 0 ≤ w) :
    IsNearest (.ofModel (.pack (ofRounded .positive r e))) (w * 2 ^ e) := by
  have hnormal := hs.normal_of_isRounded hr
  have hv : 0 ≤ w * 2 ^ e := mul_nonneg hw (two_zpow_pos e).le
  by_cases hrange : InRange r e
  · obtain ⟨b, hb, hsign, hvalue, heven⟩ :=
      binaryOf_ofRounded (hs.le_two_pow hr) .positive e (by omega)
    have hdecode : decode? (.ofModel (.pack (ofRounded .positive r e))) = some b := by
      rw [decode?_eq]
      exact (congrArg binaryOf (unpack_ofRounded hs hr hrange)).trans hb
    have hfinite : (Float.ofModel (.pack (ofRounded .positive r e))).isFinite = true := by
      rw [isFinite_eq, hdecode, Option.isSome_some]
    have hpositive : b.negative = false := hsign
    have hb_value : b.value = r * 2 ^ e := by
      rw [Binary.value, hpositive, if_neg Bool.false_ne_true, one_mul, hvalue]
    constructor
    case isFinite_iff =>
      rw [abs_of_nonneg hv]
      exact iff_of_true hfinite ((inRange_iff hs hr).mp hrange)
    case eq_infinity =>
      intro h
      rw [hfinite] at h
      cases h
    case le =>
      intro b' c y hb' hc
      cases hdecode.symm.trans hb'
      rw [hb_value]
      exact (rounded_le hs hr hc).1
    case even =>
      intro b' c y hb' hc hne heq
      cases hdecode.symm.trans hb'
      rw [hb_value] at hne heq
      exact heven ((rounded_le hs hr hc).2 hne heq)
    case sign =>
      intro b' hb' _
      cases hdecode.symm.trans hb'
      rw [hpositive, decide_eq_false (not_lt.mpr hv)]
  · have hmodel : Float.Model.pack (ofRounded .positive r e) =
        Float.Model.pack (.infinity .positive) := by
      unfold Float.Model.pack
      simp only [pack_ofRounded_of_not_inRange hs hr hrange]
      rfl
    rw [hmodel]
    exact isNearest_infinity (not_lt.mp fun hlt => hrange ((inRange_iff hs hr).mpr hlt))

theorem isFinite_pack_ofRounded (hs : Scaled w e) (hr : IsRounded r w) (s : UnpackedFloat.Sign) :
    (Float.Model.pack (ofRounded s r e)).isFinite = true ↔ w * 2 ^ e < doubleBound := by
  rw [← inRange_iff hs hr]
  change (UnpackedFloat.unpack .binary64
    (UnpackedFloat.pack .binary64 (ofRounded s r e))).isFinite = true ↔ _
  by_cases hrange : InRange r e
  · rw [unpack_ofRounded hs hr hrange]
    refine iff_of_true ?_ hrange
    unfold ofRounded
    split
    · rfl
    · split
      · rfl
      · rfl
  · rw [pack_ofRounded_of_not_inRange hs hr hrange]
    refine iff_of_false ?_ hrange
    cases s <;> decide

/-- A number below the half of the least double has the double nought. -/
theorem isNearest_zero (hpos : 0 ≤ v) (hv : v < 2 ^ (-1075 : ℤ)) :
    IsNearest (.ofModel (.pack (.zero .positive))) v := by
  have hpower := two_zpow_pos (-1074)
  have hsplit : v / 2 ^ (-1074 : ℤ) * 2 ^ (-1074 : ℤ) = v := div_mul_cancel₀ v hpower.ne'
  have hhalf : v / 2 ^ (-1074 : ℤ) < 1 / 2 := by
    rw [div_lt_iff₀ hpower, one_div_mul_eq_div, lt_div_iff₀ two_pos, mul_comm]
    have hsucc := two_zpow_succ (-1075)
    rw [show (-1074 : ℤ) = -1075 + 1 from rfl, hsucc]
    exact mul_lt_mul_of_pos_left hv two_pos
  have hw : 0 ≤ v / 2 ^ (-1074 : ℤ) := div_nonneg hpos hpower.le
  have hscaled : Scaled (v / 2 ^ (-1074 : ℤ)) (-1074) :=
    ⟨le_rfl, hhalf.trans (by norm_num), .inr rfl⟩
  have hrounded : IsRounded 0 (v / 2 ^ (-1074 : ℤ)) := by
    apply IsRounded.of_lt
    rwa [Nat.cast_zero, zero_sub, abs_neg, abs_of_nonneg hw]
  have hnearest := isNearest_ofRounded hscaled hrounded hw
  rwa [hsplit] at hnearest

end Nearest

/-! ### Signs -/

section Signs
variable {x : Float} {q : ℚ}

/-- The nearest double of the opposite number. -/
theorem IsNearest.neg (h : IsNearest x q) : IsNearest (-x) (-q) := by
  have hfinite : (-x).isFinite = x.isFinite := by
    rw [isFinite_eq, isFinite_eq, decode?_neg, Option.isSome_map]
  have hdecode {y : Float} {c : Binary} (hc : decode? y = some c) :
      decode? (-y) = some c.opposite := by rw [decode?_neg, hc, Option.map_some]
  have hback {b : Binary} (hb : decode? (-x) = some b) :
      ∃ b', decode? x = some b' ∧ b'.opposite = b := by
    rw [decode?_neg] at hb
    exact Option.map_eq_some_iff.mp hb
  have hdistance (b : Binary) : |b.value - q| = |b.opposite.value - -q| := by
    rw [Binary.value_opposite, sub_neg_eq_add, ← abs_neg, neg_sub, neg_add_eq_sub]
  have hopposite (c : Binary) : c.opposite.opposite = c := by
    rw [Binary.opposite, Binary.opposite, Bool.not_not]
  constructor
  case isFinite_iff =>
    rw [hfinite, abs_neg]
    exact h.isFinite_iff
  case eq_infinity =>
    intro hnot
    rw [hfinite] at hnot
    have hq : q ≠ 0 := by
      rintro rfl
      have hbound : |(0 : ℚ)| < doubleBound := by
        rw [abs_zero]
        exact_mod_cast doubleBound_pos
      rw [h.isFinite_iff.mpr hbound] at hnot
      cases hnot
    rw [h.eq_infinity hnot]
    rcases lt_or_gt_of_ne hq with hneg | hpos
    · rw [if_neg hneg.not_gt, if_pos (neg_pos.mpr hneg)]
      decide +kernel
    · rw [if_pos hpos, if_neg (neg_neg_of_pos hpos).not_gt]
  case le =>
    intro b c y hb hc
    obtain ⟨b', hb', rfl⟩ := hback hb
    have hle := h.le hb' (hdecode hc)
    rwa [hdistance, hdistance c.opposite, hopposite] at hle
  case even =>
    intro b c y hb hc hne heq
    obtain ⟨b', hb', rfl⟩ := hback hb
    change Even b'.mantissa
    refine h.even hb' (hdecode hc) ?_ ?_
    · intro hvalue
      rw [Binary.value_opposite] at hne hvalue
      exact hne (neg_eq_iff_eq_neg.mp hvalue)
    · rw [hdistance, hdistance c.opposite, hopposite]
      exact heq
  case sign =>
    intro b hb hq
    obtain ⟨b', hb', rfl⟩ := hback hb
    have hne : q ≠ 0 := neg_ne_zero.mp hq
    have hsign := h.sign hb' hne
    rw [Binary.opposite, hsign]
    rcases lt_or_gt_of_ne hne with hneg | hpos
    · simp [hneg, hneg.le]
    · simp [hpos, hpos.le]

end Signs

/-! ### Quotients and products -/

section Operations
variable {m m₁ m₂ : Nat} {e : Int} {accuracy : Accuracy} {v : ℚ}

theorem div_mul_shift (v : ℚ) (m : Nat) (e : Int) :
    v / 2 ^ e / 2 ^ shiftOf m e * 2 ^ (e + shiftOf m e) = v := by
  have hpower := (two_zpow_pos e).ne'
  rw [zpow_add₀ two_ne_zero, zpow_natCast]
  field_simp

theorem isNearest_roundWithAccuracy (hv : Lies m (v / 2 ^ e) accuracy)
    (he : e ≤ Format.binary64.targetExponent (totalExponent m e)) (hpos : 0 ≤ v) :
    IsNearest (.ofModel (.pack (roundWithAccuracy .binary64 .positive m e accuracy))) v := by
  have hnearest := isNearest_ofRounded (scaled_shift hv he) (isRounded_roundedOf hv)
    (div_nonneg (div_nonneg hpos (two_zpow_pos e).le) (by positivity))
  rwa [div_mul_shift, ← roundWithAccuracy_eq .positive hv he] at hnearest

theorem lies_fraction (n : Nat) {d : Nat} (hd : 0 < d) :
    Lies (n / d) (n / d) (accuracyOfFraction (n % d) d) := by
  have hd' : (0 : ℚ) < d := by exact_mod_cast hd
  have hdiv : (n : ℚ) / d = (n / d : ℕ) + (n % d : ℕ) / d := by
    have hsplit : (n : ℚ) = d * (n / d : ℕ) + (n % d : ℕ) := by
      exact_mod_cast (Nat.div_add_mod n d).symm
    rw [add_div' _ _ _ hd'.ne', mul_comm, ← hsplit]
  have hmod : ((n % d : ℕ) : ℚ) / d < 1 := by
    rw [div_lt_one hd']
    exact_mod_cast Nat.mod_lt n hd
  rw [hdiv]
  generalize n % d = t at *
  unfold accuracyOfFraction
  split
  · rename_i hzero
    rw [hzero, Nat.cast_zero, zero_div, add_zero]
    exact rfl
  · rename_i hne
    have ht : (0 : ℚ) < t / d := div_pos (by exact_mod_cast Nat.pos_of_ne_zero hne) hd'
    cases hcompare : compare (2 * t) d with
    | lt =>
      have hlt : 2 * t < d := Nat.compare_eq_lt.mp hcompare
      have hhalf : (t : ℚ) / d < 1 / 2 := by
        rw [div_lt_div_iff₀ hd' two_pos]
        exact_mod_cast (by omega : t * 2 < 1 * d)
      exact ⟨by linarith, by linarith⟩
    | eq =>
      have heq : 2 * t = d := Nat.compare_eq_eq.mp hcompare
      have hhalf : (t : ℚ) / d = 1 / 2 := by
        rw [div_eq_div_iff hd'.ne' two_ne_zero]
        exact_mod_cast (by omega : t * 2 = 1 * d)
      exact congrArg _ hhalf
    | gt =>
      have hgt : d < 2 * t := Nat.compare_eq_gt.mp hcompare
      have hhalf : 1 / 2 < (t : ℚ) / d := by
        rw [div_lt_div_iff₀ two_pos hd']
        exact_mod_cast (by omega : 1 * d < t * 2)
      exact ⟨by linarith, by linarith⟩

theorem log2_mul_two_pow (hm : 0 < m) (k : Nat) : (m * 2 ^ k).log2 = m.log2 + k := by
  have hne : m * 2 ^ k ≠ 0 := (Nat.mul_pos hm (Nat.two_pow_pos k)).ne'
  rw [Nat.log2_eq_iff hne, Nat.pow_add, Nat.add_right_comm, Nat.pow_add]
  exact ⟨Nat.mul_le_mul_right _ (Nat.log2_self_le hm.ne'),
    Nat.mul_lt_mul_of_pos_right Nat.lt_log2_self (Nat.two_pow_pos k)⟩

theorem log2_le_log2_div (n : Nat) {d : Nat} (hd : 0 < d) :
    n.log2 ≤ (n / d).log2 + d.log2 + 1 := by
  by_cases hn : n = 0
  · rw [hn]
    exact Nat.zero_le _
  · have hquotient : n / d + 1 ≤ 2 ^ ((n / d).log2 + 1) := Nat.lt_log2_self
    have hlt : n < 2 ^ ((n / d).log2 + d.log2 + 2) := by
      calc n < d * (n / d + 1) := Nat.lt_mul_div_succ n hd
        _ ≤ 2 ^ (d.log2 + 1) * 2 ^ ((n / d).log2 + 1) :=
          Nat.mul_le_mul Nat.lt_log2_self.le hquotient
        _ = 2 ^ ((n / d).log2 + d.log2 + 2) := by
          rw [← Nat.pow_add]
          congr 1
          omega
    have hlog := (Nat.log2_lt hn).mpr hlt
    omega

/-- A quotient of two doubles is rounded to the nearest one. -/
theorem isNearest_div (e₁ e₂ : Int) (h₁ : 0 < m₁) (h₂ : 0 < m₂) :
    IsNearest (.ofModel (.pack (UnpackedFloat.div .binary64 (.finite .positive m₁ e₁ h₁)
      (.finite .positive m₂ e₂ h₂)))) (m₁ * 2 ^ e₁ / (m₂ * 2 ^ e₂)) := by
  change IsNearest (.ofModel (.pack (roundWithAccuracy .binary64 .positive _ _ _))) _
  generalize htarget : min (e₁ - e₂) (Format.binary64.targetExponent
    (totalExponent m₁ e₁ - totalExponent m₂ e₂)) = target
  obtain ⟨k, hk⟩ : ∃ k : Nat, (k : Int) = e₁ - e₂ - target := ⟨_, Int.toNat_of_nonneg (by omega)⟩
  have hshift : m₁ <<< (e₁ - e₂ - target).toNat = m₁ * 2 ^ k := by
    rw [Nat.shiftLeft_eq, ← hk, Int.toNat_natCast]
  have hquotient : (m₁ * 2 ^ e₁ / (m₂ * 2 ^ e₂) : ℚ) / 2 ^ target = (m₁ * 2 ^ k : ℕ) / m₂ := by
    have hexponent : e₁ = k + e₂ + target := by omega
    have hm₂ : (m₂ : ℚ) ≠ 0 := by exact_mod_cast h₂.ne'
    have hpower := (two_zpow_pos e₂).ne'
    have hpower' := (two_zpow_pos target).ne'
    rw [hexponent, zpow_add₀ two_ne_zero, zpow_add₀ two_ne_zero, zpow_natCast]
    push_cast
    field_simp
  rw [hshift]
  refine isNearest_roundWithAccuracy ?_ ?_ (by positivity)
  · rw [hquotient]
    exact lies_fraction _ h₂
  · -- The quotient has at least as many bits as the exponent was chosen for.
    have hlog := log2_le_log2_div (m₁ * 2 ^ k) h₂
    rw [log2_mul_two_pow h₁] at hlog
    rw [targetExponent_eq] at htarget ⊢
    unfold totalExponent at htarget ⊢
    omega

/-- A product of two doubles, the first of which has 53 bits, is rounded to the nearest one. -/
theorem isNearest_mul (e₁ e₂ : Int) (h₁ : 0 < m₁) (h₂ : 0 < m₂) (hbits : 2 ^ 52 ≤ m₁) :
    IsNearest (.ofModel (.pack (UnpackedFloat.mul .binary64 (.finite .positive m₁ e₁ h₁)
      (.finite .positive m₂ e₂ h₂)))) (m₁ * 2 ^ e₁ * (m₂ * 2 ^ e₂)) := by
  change IsNearest (.ofModel (.pack (roundWithAccuracy .binary64 .positive _ _ .exact))) _
  have hpower := (two_zpow_pos e₁).ne'
  have hpower' := (two_zpow_pos e₂).ne'
  refine isNearest_roundWithAccuracy ?_ ?_ (by positivity)
  · change _ = _
    rw [zpow_add₀ two_ne_zero]
    push_cast
    field_simp
  · have hlog : 52 ≤ (m₁ * m₂).log2 := by
      rw [Nat.le_log2 (Nat.mul_pos h₁ h₂).ne']
      exact hbits.trans (Nat.le_mul_of_pos_right m₁ h₂)
    rw [targetExponent_eq]
    unfold totalExponent
    omega

theorem isFinite_pack_roundWithAccuracy (hv : Lies m (v / 2 ^ e) accuracy)
    (he : e ≤ Format.binary64.targetExponent (totalExponent m e)) (s : UnpackedFloat.Sign) :
    (Float.Model.pack (roundWithAccuracy .binary64 s m e accuracy)).isFinite = true ↔
      v < doubleBound := by
  rw [roundWithAccuracy_eq s hv he,
    isFinite_pack_ofRounded (scaled_shift hv he) (isRounded_roundedOf hv), div_mul_shift]

end Operations

end Worksheet.Number
