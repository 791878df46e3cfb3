import BeamOptics.Proofs.Scalar.Sums

/-!
# Doubles and whole numbers

A whole number above zero becomes a double above zero, since no rounding takes what is at least one to zero. And a
double that compares with zero as a zero does is one: what is not below zero, and not at zero in an exact comparison, is
above it.
-/

namespace BeamOptics

namespace Double

open Float.Model hiding pack unpack

open Float.Model.UnpackedFloat

theorem IsPositive.zero_lt {x : UnpackedFloat} (h : IsPositive x) : (UnpackedFloat.zero .positive).lt x = true := by
  cases h <;> rfl

theorem zero_lt_of_isPositive {a : Float} (h : IsPositive a.toModel.unpack) : Scalar.lt 0 a = true := by
  rw [lt_eq, unpack_zero]
  exact h.zero_lt

/-! ### From whole numbers -/

theorem isPositive_packed_roundWithAccuracy {m : Nat} {e : Int} (hm : 0 < m) (he : -1074 ≤ e + m.log2)
    (accuracy : Accuracy) :
    IsPositive (unpack Format.binary64 (pack Format.binary64
      (roundWithAccuracy Format.binary64 .positive m e accuracy))) := by
  obtain ⟨n, f, hn, hround, hfits⟩ := exists_roundWithAccuracy hm he .positive accuracy
  rw [hround]
  exact isPositive_unpack_pack hfits hn

theorem log2_add_log2_le {m n : Nat} (hm : 0 < m) (hn : 0 < n) : m.log2 + n.log2 ≤ (m * n).log2 := by
  rw [Nat.le_log2 (Nat.mul_pos hm hn).ne', Nat.pow_add]
  exact Nat.mul_le_mul (Nat.log2_self_le hm.ne') (Nat.log2_self_le hn.ne')

/-- A factor of at least one leaves a product above zero. -/
theorem isPositive_packed_mul {m n : Nat} {e f : Int} (hm : 0 < m) (hn : 0 < n) (he : -1074 ≤ e + m.log2)
    (hf : 0 ≤ f + n.log2) :
    IsPositive (unpack Format.binary64 (pack Format.binary64
      (mul Format.binary64 (.finite .positive m e hm) (.finite .positive n f hn)))) := by
  have hlog := log2_add_log2_le hm hn
  exact isPositive_packed_roundWithAccuracy (Nat.mul_pos hm hn) (by omega) .exact

theorem isPositive_toFloat {n : UInt64} (hn : 0 < n.toNat) : IsPositive n.toFloat.toModel.unpack := by
  obtain ⟨m, e, hm, hround, hfits⟩ := exists_round hn (by decide : (-1074 : Int) ≤ 0) .positive
  have hgt : compare (n.toNat : Int) 0 = .gt := compare_gt_iff_gt.mpr (Int.natCast_pos.mpr hn)
  have hnat : UnpackedFloat.ofUInt64 Format.binary64 n = round Format.binary64 .positive n.toNat 0 := by
    change UnpackedFloat.normalize Format.binary64 (n.toNat : Int) 0 .positive = _
    rw [UnpackedFloat.normalize, hgt]
    rfl
  change IsPositive (unpack Format.binary64 (pack Format.binary64 (UnpackedFloat.ofUInt64 Format.binary64 n)))
  rw [hnat, hround]
  exact isPositive_unpack_pack hfits hm

theorem unpack_one : (Float.ofBits 4607182418800017408).toModel.unpack =
    .finite .positive (2 ^ 52) (-52) (by decide) := rfl

theorem isPositive_mul_one {a : Float} (h : IsPositive a.toModel.unpack) :
    IsPositive (a * Float.ofBits 4607182418800017408).toModel.unpack := by
  change IsPositive (unpack Format.binary64 (pack Format.binary64
    (mul Format.binary64 a.toModel.unpack (Float.ofBits 4607182418800017408).toModel.unpack)))
  rw [unpack_one]
  generalize a.toModel.unpack = x at h
  cases h with
  | infinity => exact isPositive_packedInfinity
  | @finite m e h =>
    have hreach := h.exponent.trans (le_add_of_nonneg_right (Int.natCast_nonneg m.log2))
    exact isPositive_packed_mul h.pos _ hreach (by decide)

theorem isPositive_ofScientific {m : Nat} (hm : 0 < m) : IsPositive (Float.ofScientific m false 0).toModel.unpack := by
  unfold Float.ofScientific
  split
  · rename_i hsmall
    refine isPositive_mul_one (isPositive_toFloat ?_)
    rw [Nat.toUInt64_eq, UInt64.toNat_ofNat', Nat.mod_eq_of_lt (by omega)]
    exact hm
  · change IsPositive (unpack Format.binary64 (pack Format.binary64 (UnpackedFloat.ofScientific Format.binary64 m 0)))
    have hshift : 0 < m <<< Format.binary64.mantissaBits := by
      rw [Nat.shiftLeft_eq]
      exact Nat.mul_pos hm (Nat.two_pow_pos _)
    have hlarge : ¬(0 : Int) > 2 ^ Format.binary64.exponentBits := by decide
    have hsmall : ¬(0 : Int) < -(2 ^ 11 + m.log2) := by omega
    rw [UnpackedFloat.ofScientific, dif_neg hm.ne', if_neg hlarge, if_neg hsmall, if_pos le_rfl]
    refine isPositive_packed_mul hshift _ ?_ (by decide)
    simp only [Format.mantissaBits]
    omega

/-! ### Against zero -/

theorem of_unpack_eq_zero {spec : Format} {b : BitVec spec.numBits} {s : Sign} (h : unpack spec b = .zero s) :
    unpackExponent b = 0#_ ∧ unpackMantissa b = 0#_ := by
  unfold unpack at h
  dsimp only at h
  split at h
  · split at h <;> cases h
  · split at h
    · split at h
      · exact ⟨‹_›, ‹_›⟩
      · cases h
    · cases h

theorem toNat_unpackMantissa (b : BitVec 64) :
    (unpackMantissa b : BitVec Format.binary64.mantissaBitsWithoutImplicit).toNat = b.toNat % 2 ^ 52 := by
  unfold unpackMantissa
  rw [BitVec.toNat_cast, BitVec.extractLsb_toNat]
  rfl

theorem exists_ofFloat_of_isZero {x : Float} (h : IsZero x.toModel.unpack) :
    ∃ negative, Binary.ofFloat x = .finite negative 0 (-1074) := by
  obtain ⟨s, hs⟩ : ∃ s, unpack Format.binary64 x.toBits.toBitVec = .zero s := by
    change IsZero (unpack Format.binary64 x.toBits.toBitVec) at h
    generalize unpack Format.binary64 x.toBits.toBitVec = y at h
    obtain ⟨s⟩ := h
    exact ⟨s, rfl⟩
  obtain ⟨hexponent, hmantissa⟩ := of_unpack_eq_zero hs
  have hbiased : x.toBits.toNat / Nat.pow 2 52 % Nat.pow 2 11 = 0 := by
    exact (toNat_unpackExponent _).symm.trans (congrArg BitVec.toNat hexponent)
  have hfraction : x.toBits.toNat % Nat.pow 2 52 = 0 :=
    (toNat_unpackMantissa _).symm.trans (congrArg BitVec.toNat hmantissa)
  refine ⟨decide (x.toBits.toNat / Nat.pow 2 63 = 1), ?_⟩
  rw [Binary.ofFloat, hbiased, hfraction]
  rfl

theorem compareInt_zero (negative : Bool) (exponent : Int) :
    Binary.compareInt (.finite negative 0 exponent) 0 = some .eq := by
  have hquotient : (Binary.quotient 0 exponent).1 = 0 := by
    unfold Binary.quotient
    split
    · exact Nat.zero_mul _
    · rfl
  simp [Binary.compareInt, hquotient]

/-- An exact comparison tells zeros from what is above zero. -/
theorem zero_lt_of_compareInt {x : Float} (hle : Scalar.le 0 x = true)
    (hne : Binary.compareInt (.ofFloat x) 0 ≠ some .eq) : Scalar.lt 0 x = true := by
  rcases isZero_or_isPositive hle with hzero | hpositive
  · obtain ⟨negative, hx⟩ := exists_ofFloat_of_isZero hzero
    rw [hx, compareInt_zero] at hne
    exact absurd rfl hne
  · exact zero_lt_of_isPositive hpositive

end Double

theorem Decimal.zero_lt_ofInt {i : Int} (h : 0 < i) : Scalar.lt 0 (ofInt i) = true := by
  have hsign : ¬i < 0 := not_lt.mpr h.le
  have hsize : ¬(i.natAbs = 0 ∨ (digitCount i.natAbs : Int) + 0 < -400) := by omega
  unfold ofInt toFloat
  simp only [hsign, hsize, decide_false, Bool.false_eq_true, if_false]
  split
  · decide +kernel
  · exact Double.zero_lt_of_isPositive (Double.isPositive_ofScientific (Int.natAbs_pos.mpr h.ne'))

end BeamOptics
