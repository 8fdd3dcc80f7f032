import Mathlib
import Worksheet.Number.Arithmetic

/-!
The bits of a double. A double is packed as its sign, eleven bits of exponent and 52 bits of
mantissa; in front of the mantissa there is one more bit, which is not stored, unless the exponent
is the least one. What is read off the bits of a double is what it was packed from.
-/
namespace Worksheet.Number

open Float.Model Float.Model.UnpackedFloat

/-- The rational number that a finite double is. -/
def Binary.value (b : Binary) : ℚ :=
  (if b.negative then -1 else 1) * b.mantissa * (2 : ℚ) ^ b.exponent

section Packed
variable {x : Float} {s : UnpackedFloat.Sign} {m : Nat} {e : Int}

theorem toNat_unpackExponent (bits : BitVec Format.binary64.numBits) :
    (unpackExponent bits).toNat = bits.toNat / 2 ^ 52 % 2 ^ 11 := by
  unfold unpackExponent
  rw [BitVec.toNat_cast, BitVec.extractLsb_toNat, Nat.shiftRight_eq_div_pow]
  rfl

theorem toNat_unpackMantissa (bits : BitVec Format.binary64.numBits) :
    (unpackMantissa bits).toNat = bits.toNat % 2 ^ 52 := by
  unfold unpackMantissa
  rw [BitVec.toNat_cast, BitVec.extractLsb_toNat, Nat.shiftRight_zero]
  rfl

theorem toNat_unpackSign (bits : BitVec Format.binary64.numBits) :
    (unpackSign bits).toNat = bits.toNat / 2 ^ 63 := by
  have hlt : bits.toNat / 2 ^ 63 < 2 := Nat.div_lt_of_lt_mul bits.isLt
  unfold unpackSign
  rw [BitVec.toNat_cast, BitVec.extractLsb_toNat, Nat.shiftRight_eq_div_pow]
  exact Nat.mod_eq_of_lt hlt

theorem unpackSign_packComponents (s : UnpackedFloat.Sign) (exponent : BitVec 11)
    (mantissa : BitVec 52) :
    unpackSign (packComponents .binary64 s exponent mantissa) = s.toBitVec := by
  apply BitVec.eq_of_toNat_eq
  have hexponent := exponent.isLt
  have hmantissa := mantissa.isLt
  rw [toNat_unpackSign]
  change ((s.toBitVec ++ exponent) ++ mantissa).toNat / 2 ^ 63 = _
  rw [BitVec.toNat_append, BitVec.toNat_append, ← Nat.shiftLeft_add_eq_or_of_lt hmantissa,
    ← Nat.shiftLeft_add_eq_or_of_lt hexponent, Nat.shiftLeft_eq, Nat.shiftLeft_eq]
  omega

/-- The bit in front of the mantissa, which is not stored. -/
theorem toNat_one_append {w : Nat} (bits : BitVec w) :
    (1#1 ++ bits).toNat = bits.toNat + 2 ^ w := by
  rw [BitVec.toNat_append, ← Nat.shiftLeft_add_eq_or_of_lt bits.isLt, Nat.shiftLeft_eq]
  exact (Nat.add_comm _ _).trans (congrArg (bits.toNat + ·) (Nat.one_mul _))

theorem ofBitVec_toBitVec (s : UnpackedFloat.Sign) :
    UnpackedFloat.Sign.ofBitVec s.toBitVec = s := by
  cases s with
  | positive => rfl
  | negative => rfl

theorem isNegative_ofBitVec (b : BitVec 1) :
    (UnpackedFloat.Sign.ofBitVec b == .negative) = (b.toNat == 1) := by
  revert b
  decide

/-- What a double is binaryOf to, as a binary number. -/
def binaryOf : UnpackedFloat → Option Binary
  | .finite s m e _ => some ⟨s == .negative, m, e⟩
  | .zero s => some ⟨s == .negative, 0, -1074⟩
  | _ => none

theorem decode?_eq (x : Float) : decode? x = binaryOf (Float.Model.unpack x.toModel) := by
  have hbits : x.toBits.toNat = x.toModel.toBits.toBitVec.toNat := rfl
  unfold decode? Float.Model.unpack
  rw [hbits]
  generalize x.toModel.toBits.toBitVec = bits
  have hexponent := toNat_unpackExponent bits
  have hmantissa := toNat_unpackMantissa bits
  have hsign : (UnpackedFloat.Sign.ofBitVec (@unpackSign .binary64 bits) == .negative) =
      (bits.toNat / 2 ^ 63 == 1) := by
    rw [isNegative_ofBitVec, toNat_unpackSign]
  dsimp only [Nat.pow_eq]
  rw [← hexponent, ← hmantissa, ← hsign]
  unfold UnpackedFloat.unpack
  generalize @unpackExponent .binary64 bits = exponent
  dsimp only
  by_cases hmax : exponent = -1#_
  · have hnat : (exponent.toNat == 2047) = true := by
      rw [hmax]
      rfl
    rw [if_pos hmax, if_pos hnat]
    split
    · rfl
    · rfl
  · have hnat : ¬ (exponent.toNat == 2047) = true := by
      intro h
      exact hmax (BitVec.eq_of_toNat_eq (by simpa using h))
    rw [if_neg hmax, if_neg hnat]
    by_cases hzero : exponent = 0#_
    · have hnat : (exponent.toNat == 0) = true := by
        rw [hzero]
        rfl
      rw [if_pos hzero, if_pos hnat]
      split
      · rename_i h
        rw [h]
        rfl
      · simp only [binaryOf]
        rw [hzero]
        rfl
    · have hnat : ¬ (exponent.toNat == 0) = true := by
        intro h
        exact hzero (BitVec.eq_of_toNat_eq (by simpa using h))
      rw [if_neg hzero, if_neg hnat]
      simp only [binaryOf, toNat_one_append]
      rfl

/-- The mantissa and the exponent of a finite double: a mantissa of less than 53 bits stands at the
least exponent. -/
structure Canonical (m : Nat) (e : Int) : Prop where
  mantissa_lt : m < 2 ^ 53
  le_exponent : -1074 ≤ e
  normal : 2 ^ 52 ≤ m ∨ e = -1074

theorem canonical_of_decode? {b : Binary} (h : decode? x = some b) :
    Canonical b.mantissa b.exponent ∧ b.exponent < 972 := by
  unfold decode? at h
  dsimp only [Nat.pow_eq] at h
  have hlt : x.toBits.toNat / 2 ^ 52 % 2 ^ 11 < 2 ^ 11 := Nat.mod_lt _ (by decide)
  have hfraction : x.toBits.toNat % 2 ^ 52 < 2 ^ 52 := Nat.mod_lt _ (by decide)
  simp only [beq_iff_eq] at h
  split at h
  · cases h
  · rename_i hmax
    split at h
    · cases h
      dsimp only
      exact ⟨⟨by omega, by omega, .inr rfl⟩, by omega⟩
    · rename_i hzero
      cases h
      dsimp only
      exact ⟨⟨by omega, by omega, .inl (by omega)⟩, by omega⟩

theorem unpack_pack_zero (s : UnpackedFloat.Sign) :
    Float.Model.unpack (Float.Model.pack (.zero s)) = .zero s := by
  cases s with
  | positive => rfl
  | negative => rfl

/-- A double that is out of range is packed as the infinity of its sign. -/
theorem pack_eq_infinity {hm : 0 < m} (he : 972 ≤ e) :
    UnpackedFloat.pack .binary64 (.finite s m e hm) = packedInfinity .binary64 s := by
  have hlarge : 2048 ≤ (e + 1023 + 52).toNat + 1 := by omega
  exact if_pos hlarge

theorem unpack_pack_finite {hm : 0 < m} (h : Canonical m e) (he : e < 972) :
    UnpackedFloat.unpack .binary64 (UnpackedFloat.pack .binary64 (.finite s m e hm)) =
      .finite s m e hm := by
  obtain ⟨hlt, hle, hnormal⟩ := h
  have hsmall : ¬ 2048 ≤ (e + 1023 + 52).toNat + 1 := by omega
  have hpack : UnpackedFloat.pack .binary64 (.finite s m e hm) =
      if m.log2 + 1 = 53 then
        packComponents .binary64 s (BitVec.ofNat 11 (e + 1023 + 52).toNat) (BitVec.ofNat 52 m)
      else packComponents .binary64 s 0#11 (BitVec.ofNat 52 m) := if_neg hsmall
  rw [hpack]
  unfold UnpackedFloat.unpack
  dsimp only
  by_cases hlog : 2 ^ 52 ≤ m
  · have hlog2 : m.log2 + 1 = 53 := by
      rw [(Nat.log2_eq_iff (by omega)).mpr ⟨hlog, hlt⟩]
    have hexponent : (BitVec.ofNat 11 (e + 1023 + 52).toNat).toNat = (e + 1075).toNat := by
      rw [BitVec.toNat_ofNat]
      omega
    have hmax : BitVec.ofNat 11 (e + 1023 + 52).toNat ≠ -1#11 := by
      intro heq
      rw [heq] at hexponent
      change 2047 = _ at hexponent
      omega
    have hzero : BitVec.ofNat 11 (e + 1023 + 52).toNat ≠ 0#11 := by
      intro heq
      rw [heq] at hexponent
      change 0 = _ at hexponent
      omega
    have hmantissa : (1#1 ++ BitVec.ofNat 52 m).toNat = m := by
      rw [toNat_one_append, BitVec.toNat_ofNat]
      omega
    rw [if_pos hlog2]
    simp only [unpackExponent_packComponents, unpackMantissa_packComponents,
      unpackSign_packComponents, ofBitVec_toBitVec, hmax, hzero, if_false, hexponent, hmantissa]
    congr 1
    change ((e + 1075).toNat : Int) - (1023 + 52) = e
    omega
  · have hlog2 : ¬ m.log2 + 1 = 53 := by
      have hlt := (Nat.log2_lt (by omega : m ≠ 0)).mpr (Nat.lt_of_not_le hlog)
      omega
    have hmantissa : (BitVec.ofNat 52 m).toNat = m := by
      rw [BitVec.toNat_ofNat]
      omega
    have hne : BitVec.ofNat 52 m ≠ 0#52 := by
      intro heq
      rw [heq] at hmantissa
      change 0 = _ at hmantissa
      omega
    rw [if_neg hlog2]
    simp only [unpackExponent_packComponents, unpackMantissa_packComponents,
      unpackSign_packComponents, ofBitVec_toBitVec, hne, hmantissa]
    rw [if_neg (by decide)]
    simp only [if_true, dif_neg, not_false_eq_true]
    congr 1
    exact (hnormal.resolve_left hlog).symm

/-- The binary number of the other sign. -/
def Binary.opposite (b : Binary) : Binary := ⟨!b.negative, b.mantissa, b.exponent⟩

theorem Binary.value_opposite (b : Binary) : b.opposite.value = -b.value := by
  obtain ⟨_ | _, m, e⟩ := b
  · simp [Binary.value, Binary.opposite]
  · simp [Binary.value, Binary.opposite]

theorem decode?_neg (x : Float) : decode? (-x) = (decode? x).map Binary.opposite := by
  rw [decode?_eq, decode?_eq]
  change binaryOf (Float.Model.unpack (.pack (Float.Model.unpack x.toModel).neg)) = _
  have hdecode := decode?_eq x
  cases hu : Float.Model.unpack x.toModel with
  | infinity s => cases s <;> rfl
  | notANumber => rfl
  | zero s => cases s <;> rfl
  | finite s m e hm =>
    rw [hu] at hdecode
    obtain ⟨hcanonical, hlt⟩ := canonical_of_decode? hdecode
    have hunpack : Float.Model.unpack (.pack (.finite (-s) m e hm)) = .finite (-s) m e hm :=
      unpack_pack_finite hcanonical hlt
    change binaryOf (Float.Model.unpack (.pack (.finite (-s) m e hm))) = _
    rw [hunpack]
    cases s <;> rfl

theorem isSome_binaryOf (u : UnpackedFloat) : (binaryOf u).isSome = u.isFinite := by
  cases u <;> rfl

theorem isFinite_eq (x : Float) : x.isFinite = (decode? x).isSome := by
  rw [decode?_eq, isSome_binaryOf]
  rfl

end Packed

end Worksheet.Number
