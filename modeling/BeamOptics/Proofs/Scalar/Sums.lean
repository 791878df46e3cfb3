import BeamOptics.Proofs.Scalar.Quotients

/-!
# Sums of non-negative scalars

A sum of non-negative numbers is a non-negative number, and above zero as soon as one of them is. In doubles this holds
since rounding takes no value above zero to zero when its exponent is in their range.
-/

namespace BeamOptics

/-! ### Doubles -/

namespace Double

open Float.Model hiding pack unpack

open Float.Model.UnpackedFloat

/-! ### Rounding -/

theorem mantissa_shiftRight (em : ExtendedMantissa) (n : Nat) : (em >>> n).mantissa = em.mantissa / 2 ^ n := by
  change (n.repeat ExtendedMantissa.shiftRightOne em).mantissa = _
  induction n with
  | zero => simp [Nat.repeat]
  | succ n ih =>
    rw [Nat.repeat]
    change (n.repeat ExtendedMantissa.shiftRightOne em).mantissa / 2 = _
    rw [ih, Nat.div_div_eq_div_mul, Nat.pow_succ]

theorem mantissa_ofMantissaAndAccuracy (m : Nat) (accuracy : Accuracy) :
    (ExtendedMantissa.ofMantissaAndAccuracy m accuracy).mantissa = m := by
  rcases accuracy with _ | o
  · rfl
  · cases o <;> rfl

theorem mantissa_le_roundedMantissa (em : ExtendedMantissa) : em.mantissa ≤ em.roundedMantissa := by
  rcases em with ⟨m, roundBit, stickyBit⟩
  cases roundBit <;> cases stickyBit <;>
    simp [ExtendedMantissa.roundedMantissa, ExtendedMantissa.accuracy, Accuracy.roundToNearestEven]

/-- A mantissa of a double and an exponent in reach of doubles. -/
structure Fits (m : Nat) (e : Int) : Prop where
  pos : 0 < m
  mantissa : m < 2 ^ 53
  exponent : -1074 ≤ e

/-- Shifted to its place, a mantissa is cut to 53 bits, and not to none as long as its first bit is in reach. -/
theorem fits_shiftToTargetExponent {m : Nat} {e : Int} (hm : 0 < m) (he : -1074 ≤ e + m.log2) (accuracy : Accuracy) :
    Fits (shiftToTargetExponent Format.binary64 m e accuracy).1.mantissa
      (shiftToTargetExponent Format.binary64 m e accuracy).2 := by
  obtain ⟨k, hk, hlog, hbits, hexponent⟩ : ∃ k, (Format.binary64.targetExponent (totalExponent m e) - e).toNat = k ∧
      k ≤ m.log2 ∧ m.log2 ≤ k + 52 ∧ -1074 ≤ e + k := by
    simp only [Format.targetExponent, totalExponent, Format.mantissaBits, Format.minExponent]
    exact ⟨_, rfl, by omega, by omega, by omega⟩
  have hmantissa : (shiftToTargetExponent Format.binary64 m e accuracy).1.mantissa = m / 2 ^ k := by
    simp only [shiftToTargetExponent, shiftToExponent]
    rw [mantissa_shiftRight, mantissa_ofMantissaAndAccuracy, hk]
  have hlower : 2 ^ k ≤ m := (Nat.pow_le_pow_right two_pos hlog).trans (Nat.log2_self_le hm.ne')
  have hupper : m < 2 ^ 53 * 2 ^ k := by
    rw [← Nat.pow_add]
    exact Nat.lt_log2_self.trans_le (Nat.pow_le_pow_right two_pos (by omega))
  refine ⟨?_, ?_, ?_⟩
  · rw [hmantissa]
    exact Nat.div_pos hlower (Nat.two_pow_pos _)
  · rw [hmantissa]
    exact (Nat.div_lt_iff_lt_mul (Nat.two_pow_pos _)).mpr hupper
  · simp only [shiftToTargetExponent, shiftToExponent]
    rw [hk]
    exact hexponent

theorem exists_roundWithAccuracy {m : Nat} {e : Int} (hm : 0 < m) (he : -1074 ≤ e + m.log2) (s : Sign)
    (accuracy : Accuracy) :
    ∃ m' e' hm', roundWithAccuracy Format.binary64 s m e accuracy = .finite s m' e' hm' ∧ Fits m' e' := by
  have hfirst := fits_shiftToTargetExponent hm he accuracy
  have hrounded := hfirst.pos.trans_le (mantissa_le_roundedMantissa _)
  have hreach (k : Nat) := hfirst.exponent.trans (le_add_of_nonneg_right (Int.natCast_nonneg k))
  have hsecond := fits_shiftToTargetExponent hrounded (hreach _) .exact
  refine ⟨_, _, hsecond.pos, ?_, hsecond⟩
  simp only [roundWithAccuracy]
  rw [dif_neg hsecond.pos.ne']

theorem exists_round {m : Nat} {e : Int} (hm : 0 < m) (he : -1074 ≤ e) (s : Sign) :
    ∃ m' e' hm', round Format.binary64 s m e = .finite s m' e' hm' ∧ Fits m' e' := by
  have hmantissa (k : Nat) : 0 < m <<< k := by
    rw [Nat.shiftLeft_eq]
    exact Nat.mul_pos hm (Nat.two_pow_pos k)
  have hexponent : -1074 ≤ e - (e - Format.binary64.targetExponent (totalExponent m e)).toNat := by
    simp only [Format.targetExponent, Format.mantissaBits, Format.minExponent]
    omega
  refine exists_roundWithAccuracy (hmantissa _) ?_ s .exact
  omega

/-! ### Packing -/

theorem fits_of_unpack {b : BitVec Format.binary64.numBits} {s : Sign} {m : Nat} {e : Int} {hm : 0 < m}
    (h : unpack Format.binary64 b = .finite s m e hm) : Fits m e := by
  have hmantissa : (unpackMantissa b : BitVec Format.binary64.mantissaBitsWithoutImplicit).toNat < 2 ^ 52 :=
    (unpackMantissa b : BitVec Format.binary64.mantissaBitsWithoutImplicit).isLt
  unfold unpack at h
  dsimp only at h
  split at h
  · split at h <;> cases h
  · split at h
    · rename_i hzero
      split at h
      · cases h
      · cases h
        refine ⟨hm, ?_, ?_⟩
        · omega
        · rw [hzero]
          decide
    · cases h
      refine ⟨hm, ?_, ?_⟩
      · have hbits := (1#1 ++ (unpackMantissa b : BitVec Format.binary64.mantissaBitsWithoutImplicit)).isLt
        exact hbits
      · rename_i hnonzero
        have hpos : (unpackExponent b : BitVec Format.binary64.exponentBits).toNat ≠ 0 :=
          fun hnat => hnonzero (BitVec.eq_of_toNat_eq hnat)
        simp only [Format.exponentBias]
        omega

inductive IsZero : UnpackedFloat → Prop
  | zero (s : Sign) : IsZero (.zero s)

/-- Doubles above zero, infinity included. -/
inductive IsPositive : UnpackedFloat → Prop
  | infinity : IsPositive (.infinity .positive)
  | finite {m : Nat} {e : Int} (h : Fits m e) : IsPositive (.finite .positive m e h.pos)

theorem unpackSign_packComponents (spec : Format) (s : Sign) (exponent : BitVec spec.exponentBits)
    (mantissa : BitVec spec.mantissaBitsWithoutImplicit) :
    unpackSign (packComponents spec s exponent mantissa) = s.toBitVec := by
  ext i hi
  obtain rfl : i = 0 := by omega
  simp [unpackSign, packComponents, BitVec.getLsbD_append, BitVec.getElem_append]

/-- Among unpacked doubles, those that are not below zero are zeros or above it. -/
theorem isZero_or_isPositive_of_le {b : BitVec Format.binary64.numBits}
    (h : (UnpackedFloat.zero .positive).le (unpack Format.binary64 b) = true) :
    IsZero (unpack Format.binary64 b) ∨ IsPositive (unpack Format.binary64 b) := by
  have hfits {s : Sign} {m : Nat} {e : Int} {hm : 0 < m} : unpack Format.binary64 b = .finite s m e hm → Fits m e :=
    fits_of_unpack
  generalize unpack Format.binary64 b = x at h hfits
  cases x with
  | notANumber => cases h
  | zero s => exact .inl (.zero s)
  | infinity s =>
    cases s with
    | positive => exact .inr .infinity
    | negative => cases h
  | finite s m e hm =>
    cases s with
    | positive => exact .inr (.finite (hfits rfl))
    | negative => cases h

theorem isPositive_of_lt {b : BitVec Format.binary64.numBits}
    (h : (UnpackedFloat.zero .positive).lt (unpack Format.binary64 b) = true) :
    IsPositive (unpack Format.binary64 b) := by
  have hle : (UnpackedFloat.zero .positive).le (unpack Format.binary64 b) = true := by
    rw [UnpackedFloat.lt, beq_iff_eq] at h
    rw [UnpackedFloat.le, h]
    rfl
  refine (isZero_or_isPositive_of_le hle).resolve_left fun hzero => ?_
  generalize unpack Format.binary64 b = x at h hzero
  cases hzero
  cases h

/-- Components other than those of a zero and of what is no number. -/
theorem isPositive_unpack_packComponents {exponent : BitVec Format.binary64.exponentBits}
    {mantissa : BitVec Format.binary64.mantissaBitsWithoutImplicit} (hnumber : exponent = -1#_ → mantissa = 0#_)
    (hnonzero : exponent = 0#_ → mantissa ≠ 0#_) :
    IsPositive (unpack Format.binary64 (packComponents Format.binary64 .positive exponent mantissa)) := by
  apply isPositive_of_lt
  unfold unpack
  dsimp only
  rw [unpackExponent_packComponents, unpackSign_packComponents]
  split
  · rw [unpackMantissa_packComponents, if_pos (hnumber ‹_›)]
    rfl
  · split
    · rw [dif_neg]
      · rfl
      · rw [unpackMantissa_packComponents]
        exact hnonzero ‹_›
    · rfl

theorem isZero_unpack_packComponents (s : Sign) :
    IsZero (unpack Format.binary64 (packComponents Format.binary64 s 0#_ 0#_)) := by
  unfold unpack
  dsimp only
  rw [unpackExponent_packComponents, if_neg (zero_ne_neg_one Format.binary64), if_pos rfl,
    dif_pos unpackMantissa_packComponents]
  exact .zero _

/-- What fits into a double is still above zero when it is packed. -/
theorem isPositive_unpack_pack {m : Nat} {e : Int} (h : Fits m e) (hm : 0 < m) :
    IsPositive (unpack Format.binary64 (pack Format.binary64 (.finite .positive m e hm))) := by
  have hsmall := h.mantissa
  have hlow := h.exponent
  simp only [pack]
  split
  · apply isPositive_unpack_packComponents (fun _ => rfl)
    exact fun hzero => absurd hzero.symm (zero_ne_neg_one Format.binary64)
  · rename_i hexponent
    split
    · -- a mantissa of full length has an exponent of its own
      apply isPositive_unpack_packComponents
      · intro hlarge
        exact absurd hlarge (ofNat_ne_neg_one hexponent)
      · intro hzero
        have hnat := congrArg BitVec.toNat hzero
        rw [BitVec.toNat_ofNat, Nat.mod_eq_of_lt (by omega)] at hnat
        simp only [Format.exponentBias, BitVec.toNat_zero] at hnat
        omega
    · rename_i hlength
      apply isPositive_unpack_packComponents
      · intro hlarge
        exact absurd hlarge (zero_ne_neg_one Format.binary64)
      · intro _ hzero
        have hshort : m < 2 ^ 52 := by
          by_contra hlong
          have hlog : m.log2 = 52 := (Nat.log2_eq_iff hm.ne').mpr ⟨not_lt.mp hlong, hsmall⟩
          exact hlength (by rw [hlog]; rfl)
        have hnat := congrArg BitVec.toNat hzero
        rw [BitVec.toNat_ofNat, Nat.mod_eq_of_lt hshort] at hnat
        exact hm.ne' hnat

/-! ### Addition -/

/-- The sum of two values as a double. -/
def packedSum (x y : UnpackedFloat) : UnpackedFloat :=
  unpack Format.binary64 (pack Format.binary64 (add Format.binary64 x y))

theorem isPositive_packedInfinity : IsPositive (unpack Format.binary64 (pack Format.binary64 (.infinity .positive))) :=
  isPositive_unpack_packComponents (fun _ => rfl) fun hzero => absurd hzero.symm (zero_ne_neg_one Format.binary64)

theorem isZero_packedSum {x y : UnpackedFloat} (hx : IsZero x) (hy : IsZero y) : IsZero (packedSum x y) := by
  obtain ⟨s⟩ := hx
  obtain ⟨t⟩ := hy
  cases s <;> cases t <;> exact isZero_unpack_packComponents _

theorem isPositive_packedSum_of_isZero {x y : UnpackedFloat} (hx : IsZero x) (hy : IsPositive y) :
    IsPositive (packedSum x y) ∧ IsPositive (packedSum y x) := by
  obtain ⟨s⟩ := hx
  cases hy with
  | infinity => exact ⟨isPositive_packedInfinity, isPositive_packedInfinity⟩
  | finite h => exact ⟨isPositive_unpack_pack h h.pos, isPositive_unpack_pack h h.pos⟩

theorem isPositive_packedSum {x y : UnpackedFloat} (hx : IsPositive x) (hy : IsPositive y) :
    IsPositive (packedSum x y) := by
  cases hx with
  | infinity => cases hy <;> exact isPositive_packedInfinity
  | @finite m e hm =>
    cases hy with
    | infinity => exact isPositive_packedInfinity
    | @finite n f hn =>
      -- the mantissas are brought to the smaller exponent, where they add up to one above zero
      have hsum : 0 < m <<< (e - min e f).toNat + n <<< (f - min e f).toNat := by
        rw [Nat.shiftLeft_eq, Nat.shiftLeft_eq]
        exact Nat.add_pos_left (Nat.mul_pos hm.pos (Nat.two_pow_pos _)) _
      have hadd : add Format.binary64 (.finite .positive m e hm.pos) (.finite .positive n f hn.pos) =
          round Format.binary64 .positive (m <<< (e - min e f).toNat + n <<< (f - min e f).toNat) (min e f) := by
        have hgt : compare ((m <<< (e - min e f).toNat + n <<< (f - min e f).toNat : Nat) : Int) 0 = .gt :=
          compare_gt_iff_gt.mpr (Int.natCast_pos.mpr hsum)
        simp only [UnpackedFloat.add, decreaseExponent, Sign.apply, UnpackedFloat.normalize]
        rw [← Int.natCast_add, hgt]
        rfl
      obtain ⟨k, g, hk, hround, hfits⟩ := exists_round hsum (le_min hm.exponent hn.exponent) .positive
      rw [packedSum, hadd, hround]
      exact isPositive_unpack_pack hfits hk

/-! ### Comparison with zero -/

theorem IsZero.zero_le {x : UnpackedFloat} (h : IsZero x) : (UnpackedFloat.zero .positive).le x = true := by
  cases h
  rfl

theorem IsZero.le_zero {x : UnpackedFloat} (h : IsZero x) : x.le (.zero .positive) = true := by
  cases h
  rfl

theorem IsPositive.zero_le {x : UnpackedFloat} (h : IsPositive x) : (UnpackedFloat.zero .positive).le x = true := by
  cases h <;> rfl

theorem IsPositive.not_le_zero {x : UnpackedFloat} (h : IsPositive x) : x.le (.zero .positive) = false := by
  cases h <;> rfl

/-- A double that is not below zero is a zero or above it. -/
theorem isZero_or_isPositive {a : Float} (h : Scalar.le 0 a = true) :
    IsZero a.toModel.unpack ∨ IsPositive a.toModel.unpack := by
  rw [le_eq, unpack_zero] at h
  exact isZero_or_isPositive_of_le h

end Double

namespace Scalar

/-- Scalars whose non-negative numbers add up to non-negative numbers, and to zero only if all are zero. -/
class Cumulative (α : Type) [Scalar α] : Prop where
  zero_le_zero : le (0 : α) 0 = true
  zero_le_add {a b : α} : le 0 a = true → le 0 b = true → le 0 (a + b) = true
  add_le_zero_iff {a b : α} : le 0 a = true → le 0 b = true → (le (a + b) 0 = true ↔ le a 0 = true ∧ le b 0 = true)

instance : Cumulative ℝ where
  zero_le_zero := decide_eq_true le_rfl
  zero_le_add ha hb := decide_eq_true (add_nonneg (of_decide_eq_true ha) (of_decide_eq_true hb))
  add_le_zero_iff {a b} ha hb := by
    rw [le_real, decide_eq_true_iff] at ha hb
    simp only [le_real, decide_eq_true_iff]
    constructor
    · intro h
      constructor <;> linarith
    · intro h
      linarith

instance : Cumulative Float where
  zero_le_zero := by decide +kernel
  zero_le_add {a b} ha hb := by
    have hsum : (a + b).toModel.unpack = Double.packedSum a.toModel.unpack b.toModel.unpack := rfl
    rw [Double.le_eq, Double.unpack_zero, hsum]
    rcases Double.isZero_or_isPositive ha with hazero | hapos <;>
      rcases Double.isZero_or_isPositive hb with hbzero | hbpos
    · exact (Double.isZero_packedSum hazero hbzero).zero_le
    · exact (Double.isPositive_packedSum_of_isZero hazero hbpos).1.zero_le
    · exact (Double.isPositive_packedSum_of_isZero hbzero hapos).2.zero_le
    · exact (Double.isPositive_packedSum hapos hbpos).zero_le
  add_le_zero_iff {a b} ha hb := by
    have hsum : (a + b).toModel.unpack = Double.packedSum a.toModel.unpack b.toModel.unpack := rfl
    rw [Double.le_eq, Double.le_eq, Double.le_eq, Double.unpack_zero, hsum]
    rcases Double.isZero_or_isPositive ha with hazero | hapos <;>
      rcases Double.isZero_or_isPositive hb with hbzero | hbpos
    · exact iff_of_true (Double.isZero_packedSum hazero hbzero).le_zero ⟨hazero.le_zero, hbzero.le_zero⟩
    · rw [(Double.isPositive_packedSum_of_isZero hazero hbpos).1.not_le_zero, hbpos.not_le_zero]
      simp
    · rw [(Double.isPositive_packedSum_of_isZero hbzero hapos).2.not_le_zero, hapos.not_le_zero]
      simp
    · rw [(Double.isPositive_packedSum hapos hbpos).not_le_zero, hapos.not_le_zero]
      simp

/-! ### Sums -/

variable {α : Type} [Scalar α] [Cumulative α]

theorem zero_le_foldl_add {values : List α} {a : α} (ha : le 0 a = true) (h : ∀ v ∈ values, le 0 v = true) :
    le 0 (values.foldl (· + ·) a) = true := by
  induction values generalizing a with
  | nil => exact ha
  | cons v rest ih =>
    obtain ⟨hv, hrest⟩ := List.forall_mem_cons.mp h
    exact ih (Cumulative.zero_le_add ha hv) hrest

theorem foldl_add_iff {values : List α} {a : α} (ha : le 0 a = true) (h : ∀ v ∈ values, le 0 v = true) :
    le (values.foldl (· + ·) a) 0 = true ↔ le a 0 = true ∧ ∀ v ∈ values, le v 0 = true := by
  induction values generalizing a with
  | nil => simp
  | cons v rest ih =>
    obtain ⟨hv, hrest⟩ := List.forall_mem_cons.mp h
    rw [List.foldl_cons, ih (Cumulative.zero_le_add ha hv) hrest, Cumulative.add_le_zero_iff ha hv,
      List.forall_mem_cons, and_assoc]

/-- A sum of non-negative numbers is above zero unless all of them are zero. -/
theorem sum_le_zero_iff {values : List α} (h : ∀ v ∈ values, le 0 v = true) :
    le (sum values) 0 = true ↔ ∀ v ∈ values, le v 0 = true := by
  rw [sum, foldl_add_iff Cumulative.zero_le_zero h]
  exact and_iff_right Cumulative.zero_le_zero

end Scalar

end BeamOptics
