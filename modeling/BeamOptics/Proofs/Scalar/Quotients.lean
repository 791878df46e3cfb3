import Mathlib
import BeamOptics.Proofs.Scalar.Order

/-!
# Quotients of doubles

A finite value over one above zero is a number, as no rounding makes what is no number out of what is one. A number that
is not infinite can be rounded up to a whole number.
-/

namespace BeamOptics

namespace Double

open Float.Model hiding pack unpack

open Float.Model.UnpackedFloat

theorem isNumber_of_lt {a b : Float} (h : Scalar.lt a b = true) :
    Scalar.isNumber a = true ∧ Scalar.isNumber b = true := by
  rw [lt_eq, UnpackedFloat.lt] at h
  rw [isNumber_iff, isNumber_iff, ← isSome_compare_iff]
  cases ho : a.toModel.unpack.compare b.toModel.unpack with
  | none => exact absurd h (by rw [ho]; decide)
  | some o => rfl

/-! ### Packed values -/

theorem unpack_eq_notANumber_iff {spec : Format} (b : BitVec spec.numBits) :
    unpack spec b = .notANumber ↔ unpackExponent b = -1#_ ∧ unpackMantissa b ≠ 0#_ := by
  unfold unpack
  dsimp only
  split
  · split
    · exact iff_of_false nofun fun h => absurd ‹_› h.2
    · exact iff_of_true rfl ⟨‹_›, ‹_›⟩
  · split
    · split <;> exact iff_of_false nofun fun h => absurd h.1 ‹_›
    · exact iff_of_false nofun fun h => absurd h.1 ‹_›

theorem zero_ne_neg_one (spec : Format) : (0#_ : BitVec spec.exponentBits) ≠ -1#_ := by
  have hbits := spec.he
  intro h
  have hnat := congrArg BitVec.toNat h
  rw [BitVec.neg_one_eq_allOnes, BitVec.toNat_zero, BitVec.toNat_allOnes] at hnat
  have htwo : 2 ^ 1 ≤ 2 ^ spec.exponentBits := Nat.pow_le_pow_right Nat.two_pos hbits
  omega

/-- An exponent that is not too large for its bits is not the one of infinities. -/
theorem ofNat_ne_neg_one {bits exponent : Nat} (h : ¬2 ^ bits ≤ exponent + 1) : BitVec.ofNat bits exponent ≠ -1#_ := by
  intro hequal
  have hnat := congrArg BitVec.toNat hequal
  rw [BitVec.neg_one_eq_allOnes, BitVec.toNat_ofNat, BitVec.toNat_allOnes, Nat.mod_eq_of_lt (by omega)] at hnat
  omega

/-- Packing may round to an infinity, but never to what is no number. -/
theorem unpack_pack_ne_notANumber (spec : Format) {x : UnpackedFloat} (h : x ≠ .notANumber) :
    unpack spec (pack spec x) ≠ .notANumber := by
  rw [ne_eq, unpack_eq_notANumber_iff]
  have hinfinity (s : Sign) : unpackMantissa (packedInfinity spec s) = 0#_ := unpackMantissa_packComponents
  rintro ⟨hexponent, hmantissa⟩
  cases x with
  | notANumber => exact h rfl
  | infinity s => exact hmantissa (hinfinity s)
  | zero s => exact zero_ne_neg_one spec (unpackExponent_packComponents.symm.trans hexponent)
  | finite s m e hm =>
    simp only [pack] at hexponent hmantissa
    split at hexponent
    · rename_i hlarge
      rw [if_pos hlarge] at hmantissa
      exact hmantissa (hinfinity s)
    · rename_i hsmall
      split at hexponent
      · exact ofNat_ne_neg_one hsmall (unpackExponent_packComponents.symm.trans hexponent)
      · exact zero_ne_neg_one spec (unpackExponent_packComponents.symm.trans hexponent)

/-! ### Division -/

theorem roundWithAccuracy_ne_notANumber (spec : Format) (s : Sign) (m : Nat) (e : Int) (accuracy : Accuracy) :
    roundWithAccuracy spec s m e accuracy ≠ .notANumber := by
  unfold roundWithAccuracy
  dsimp only
  split <;> exact nofun

theorem div_ne_notANumber (spec : Format) {x y : UnpackedFloat} (hx : x.isFinite = true)
    (hy : (UnpackedFloat.zero .positive).lt y = true) : div spec x y ≠ .notANumber := by
  cases x with
  | notANumber => cases hx
  | infinity s => cases hx
  | zero s =>
    cases y with
    | notANumber => cases hy
    | zero t => cases hy
    | _ => exact nofun
  | finite s m e hm =>
    cases y with
    | notANumber => cases hy
    | zero t => cases hy
    | infinity t => exact nofun
    | finite t n f hn => exact roundWithAccuracy_ne_notANumber _ _ _ _ _

theorem unpack_zero : (0 : Float).toModel.unpack = .zero .positive := by rfl

theorem isNumber_div {a b : Float} (ha : a.isFinite = true) (hb : Scalar.lt 0 b = true) :
    Scalar.isNumber (a / b) = true := by
  rw [lt_eq, unpack_zero] at hb
  rw [isNumber_iff]
  exact unpack_pack_ne_notANumber _ (div_ne_notANumber _ ha hb)

/-! ### Rounding up -/

theorem toNat_unpackExponent (b : BitVec 64) :
    (unpackExponent b : BitVec Format.binary64.exponentBits).toNat = b.toNat / 2 ^ 52 % 2 ^ 11 := by
  unfold unpackExponent
  rw [BitVec.toNat_cast, BitVec.extractLsb_toNat, Nat.shiftRight_eq_div_pow]
  rfl

/-- The bits of an exponent are all set just for infinities and for what is no number. -/
theorem unpackExponent_ne_neg_one {x : Float} (hnumber : Scalar.isNumber x = true) (hinf : x.isInf = false) :
    (unpackExponent x.toBits.toBitVec : BitVec Format.binary64.exponentBits) ≠ -1#_ := by
  rw [isNumber_iff] at hnumber
  intro hexponent
  by_cases hmantissa : (unpackMantissa x.toBits.toBitVec : BitVec Format.binary64.mantissaBitsWithoutImplicit) = 0#_
  · have hunpack : x.toModel.unpack.isInf = true := by
      change (unpack Format.binary64 x.toBits.toBitVec).isInf = true
      rw [unpack, if_pos hexponent, if_pos hmantissa]
      rfl
    exact absurd (hunpack.symm.trans hinf) (by decide)
  · exact hnumber ((unpack_eq_notANumber_iff _).mpr ⟨hexponent, hmantissa⟩)

theorem exists_ofFloat {x : Float} (hnumber : Scalar.isNumber x = true) (hinf : x.isInf = false) :
    ∃ negative mantissa exponent, Binary.ofFloat x = .finite negative mantissa exponent := by
  have hbiased : x.toBits.toNat / Nat.pow 2 52 % Nat.pow 2 11 ≠ 2047 := by
    intro hbits
    refine unpackExponent_ne_neg_one hnumber hinf (BitVec.eq_of_toNat_eq ?_)
    rw [toNat_unpackExponent]
    exact hbits
  rw [Binary.ofFloat, if_neg hbiased]
  split <;> exact ⟨_, _, _, rfl⟩

theorem exists_ceil {x : Float} (hnumber : Scalar.isNumber x = true) (hinf : x.isInf = false) :
    ∃ i : Int, Scalar.ceil x = .ok i := by
  obtain ⟨negative, mantissa, exponent, hx⟩ := exists_ofFloat hnumber hinf
  refine ⟨Binary.ceiling negative mantissa exponent, ?_⟩
  change ceil x = _
  rw [ceil, hx]

end Double

end BeamOptics
