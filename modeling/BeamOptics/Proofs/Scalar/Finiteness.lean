import BeamOptics.Proofs.Scalar.Sums

/-!
# Finite results

A result of arithmetic is finite only if what it was computed from is: infinities and what is no number go through
every sum, difference and product, and through numerators. What is no number goes on as such through sums and products.
Finite values never differ by it, and the square of a number is never below zero, though both may be infinite.
-/

namespace BeamOptics

/-! ### Doubles -/

namespace Double

open Float.Model hiding pack unpack

open Float.Model.UnpackedFloat

/-- A value that is packed as a finite double is finite itself. -/
theorem isFinite_of_packed {x : UnpackedFloat}
    (h : (unpack Format.binary64 (pack Format.binary64 x)).isFinite = true) : x.isFinite = true := by
  cases x with
  | notANumber => exact absurd h (by decide)
  | infinity s => cases s <;> exact absurd h (by decide)
  | _ => rfl

theorem ne_notANumber_of_packed {x : UnpackedFloat}
    (h : unpack Format.binary64 (pack Format.binary64 x) ≠ .notANumber) : x ≠ .notANumber := by
  rintro rfl
  exact h rfl

section

variable {spec : Format} {x y : UnpackedFloat}

theorem isFinite_of_add (h : (add spec x y).isFinite = true) : x.isFinite = true ∧ y.isFinite = true := by
  cases x with
  | notANumber => cases h
  | infinity s =>
    cases y with
    | infinity t =>
      rw [UnpackedFloat.add] at h
      split at h <;> cases h
    | _ => cases h
  | _ =>
    cases y with
    | notANumber => cases h
    | infinity t => cases h
    | _ => exact ⟨rfl, rfl⟩

theorem isFinite_of_sub (h : (sub spec x y).isFinite = true) : x.isFinite = true ∧ y.isFinite = true := by
  cases x with
  | notANumber => cases h
  | infinity s =>
    cases y with
    | infinity t =>
      rw [UnpackedFloat.sub] at h
      split at h <;> cases h
    | _ => cases h
  | _ =>
    cases y with
    | notANumber => cases h
    | infinity t => cases h
    | _ => exact ⟨rfl, rfl⟩

theorem isFinite_of_mul (h : (mul spec x y).isFinite = true) : x.isFinite = true ∧ y.isFinite = true := by
  cases x with
  | notANumber => cases h
  | infinity s => cases y <;> cases h
  | _ =>
    cases y with
    | notANumber => cases h
    | infinity t => cases h
    | _ => exact ⟨rfl, rfl⟩

/-- An infinite divisor leaves a zero, but no division makes a finite value out of another one. -/
theorem isFinite_of_div (h : (div spec x y).isFinite = true) : x.isFinite = true := by
  cases x with
  | notANumber => cases h
  | infinity s => cases y <;> cases h
  | _ => rfl

theorem ne_notANumber_of_add (h : add spec x y ≠ .notANumber) : x ≠ .notANumber ∧ y ≠ .notANumber := by
  constructor
  · rintro rfl
    exact h rfl
  · rintro rfl
    exact h (by cases x <;> rfl)

theorem ne_notANumber_of_mul (h : mul spec x y ≠ .notANumber) : x ≠ .notANumber ∧ y ≠ .notANumber := by
  constructor
  · rintro rfl
    exact h rfl
  · rintro rfl
    exact h (by cases x <;> rfl)

theorem normalize_ne_notANumber (mantissa exponent : Int) (s : Sign) :
    UnpackedFloat.normalize spec mantissa exponent s ≠ .notANumber := by
  unfold UnpackedFloat.normalize
  split
  · exact roundWithAccuracy_ne_notANumber spec _ _ _ _
  · exact nofun
  · exact roundWithAccuracy_ne_notANumber spec _ _ _ _

theorem sub_ne_notANumber (hx : x.isFinite = true) (hy : y.isFinite = true) : sub spec x y ≠ .notANumber := by
  cases x with
  | notANumber => cases hx
  | infinity s => cases hx
  | zero s =>
    cases y with
    | notANumber => cases hy
    | infinity t => cases hy
    | zero t =>
      rw [UnpackedFloat.sub]
      split <;> exact nofun
    | finite t n f hn => exact nofun
  | finite s m e hm =>
    cases y with
    | notANumber => cases hy
    | infinity t => cases hy
    | zero t => exact nofun
    | finite t n f hn => exact normalize_ne_notANumber _ _ _

end

/-! ### Squares -/

/-- Components with a positive sign make no double below zero. -/
theorem zero_le_unpack_packComponents {exponent : BitVec Format.binary64.exponentBits}
    {mantissa : BitVec Format.binary64.mantissaBitsWithoutImplicit} (hnumber : exponent = -1#_ → mantissa = 0#_) :
    (UnpackedFloat.zero .positive).le
      (unpack Format.binary64 (packComponents Format.binary64 .positive exponent mantissa)) = true := by
  by_cases hzero : exponent = 0#_ ∧ mantissa = 0#_
  · obtain ⟨rfl, rfl⟩ := hzero
    exact (isZero_unpack_packComponents .positive).zero_le
  · exact (isPositive_unpack_packComponents hnumber fun he hm => hzero ⟨he, hm⟩).zero_le

theorem zero_le_unpack_pack {m : Nat} {e : Int} (hm : 0 < m) :
    (UnpackedFloat.zero .positive).le
      (unpack Format.binary64 (pack Format.binary64 (.finite .positive m e hm))) = true := by
  simp only [pack]
  split
  · exact isPositive_packedInfinity.zero_le
  · rename_i hexponent
    split
    · exact zero_le_unpack_packComponents fun hlarge => absurd hlarge (ofNat_ne_neg_one hexponent)
    · exact zero_le_unpack_packComponents fun hlarge => absurd hlarge (zero_ne_neg_one Format.binary64)

/-- A product of equal signs may be rounded to zero, but not to a value below it. -/
theorem zero_le_packed_mul_self {x : UnpackedFloat} (h : x ≠ .notANumber) :
    (UnpackedFloat.zero .positive).le
      (unpack Format.binary64 (pack Format.binary64 (mul Format.binary64 x x))) = true := by
  cases x with
  | notANumber => exact absurd rfl h
  | zero s => exact (isZero_unpack_packComponents _).zero_le
  | infinity s => cases s <;> exact isPositive_packedInfinity.zero_le
  | finite s m e hm =>
    have hsign : s * s = .positive := by cases s <;> rfl
    rw [UnpackedFloat.mul, hsign]
    unfold roundWithAccuracy
    dsimp only
    split
    · exact (isZero_unpack_packComponents _).zero_le
    · exact zero_le_unpack_pack _

/-- A double that is not finite is no number or infinite. -/
theorem isNaN_or_isInf {x : Float} (h : x.isFinite = false) : x.isNaN = true ∨ x.isInf = true := by
  change x.toModel.unpack.isFinite = false at h
  change x.toModel.unpack.isNaN = true ∨ x.toModel.unpack.isInf = true
  generalize x.toModel.unpack = u at h ⊢
  cases u with
  | notANumber => exact .inl rfl
  | infinity s => exact .inr rfl
  | zero s => cases h
  | finite s m e hm => cases h

end Double

namespace Scalar

/-- Scalars where a result is finite, or a number, only if what it was computed from is, where finite values differ by a
number, and where the square of a number is not below zero. -/
class Absorbing (α : Type) [Scalar α] : Prop where
  isFinite_of_add {a b : α} : isFinite (a + b) = true → isFinite a = true ∧ isFinite b = true
  isFinite_of_sub {a b : α} : isFinite (a - b) = true → isFinite a = true ∧ isFinite b = true
  isFinite_of_mul {a b : α} : isFinite (a * b) = true → isFinite a = true ∧ isFinite b = true
  isFinite_of_div {a b : α} : isFinite (a / b) = true → isFinite a = true
  isNumber_of_add {a b : α} : isNumber (a + b) = true → isNumber a = true ∧ isNumber b = true
  isNumber_of_mul {a b : α} : isNumber (a * b) = true → isNumber a = true ∧ isNumber b = true
  isNumber_sub {a b : α} : isFinite a = true → isFinite b = true → isNumber (a - b) = true
  zero_le_square {a : α} : isNumber a = true → le 0 (a * a) = true

instance : Absorbing ℝ where
  isFinite_of_add _ := ⟨rfl, rfl⟩
  isFinite_of_sub _ := ⟨rfl, rfl⟩
  isFinite_of_mul _ := ⟨rfl, rfl⟩
  isFinite_of_div _ := rfl
  isNumber_of_add _ := ⟨decide_eq_true rfl, decide_eq_true rfl⟩
  isNumber_of_mul _ := ⟨decide_eq_true rfl, decide_eq_true rfl⟩
  isNumber_sub _ _ := decide_eq_true rfl
  zero_le_square {a} _ := decide_eq_true (mul_self_nonneg a)

instance : Absorbing Float where
  isFinite_of_add h := Double.isFinite_of_add (Double.isFinite_of_packed h)
  isFinite_of_sub h := Double.isFinite_of_sub (Double.isFinite_of_packed h)
  isFinite_of_mul h := Double.isFinite_of_mul (Double.isFinite_of_packed h)
  isFinite_of_div h := Double.isFinite_of_div (Double.isFinite_of_packed h)
  isNumber_of_add h := by
    rw [Double.isNumber_iff] at h
    rw [Double.isNumber_iff, Double.isNumber_iff]
    exact Double.ne_notANumber_of_add (Double.ne_notANumber_of_packed h)
  isNumber_of_mul h := by
    rw [Double.isNumber_iff] at h
    rw [Double.isNumber_iff, Double.isNumber_iff]
    exact Double.ne_notANumber_of_mul (Double.ne_notANumber_of_packed h)
  isNumber_sub {a b} ha hb := by
    rw [Double.isNumber_iff]
    exact Double.unpack_pack_ne_notANumber _ (Double.sub_ne_notANumber ha hb)
  zero_le_square {a} ha := by
    rw [Double.isNumber_iff] at ha
    rw [Double.le_eq, Double.unpack_zero]
    exact Double.zero_le_packed_mul_self ha

/-! ### Sums of squares -/

variable {α : Type} [Scalar α] [Absorbing α]

theorem isNumber_of_foldl_add {values : List α} {a : α} (h : isNumber (values.foldl (· + ·) a) = true) :
    isNumber a = true ∧ ∀ v ∈ values, isNumber v = true := by
  induction values generalizing a with
  | nil => exact ⟨h, nofun⟩
  | cons v rest ih =>
    obtain ⟨hsum, hrest⟩ := ih h
    obtain ⟨ha, hv⟩ := Absorbing.isNumber_of_add hsum
    exact ⟨ha, List.forall_mem_cons.mpr ⟨hv, hrest⟩⟩

theorem isNumber_of_sum_square {values : List α} (h : isNumber (sum (values.map square)) = true) :
    ∀ v ∈ values, isNumber v = true := by
  intro v hv
  exact (Absorbing.isNumber_of_mul ((isNumber_of_foldl_add h).2 _ (List.mem_map_of_mem hv))).1

/-- A sum of squares of numbers is not below zero. -/
theorem zero_le_sum_square [Cumulative α] {values : List α} (h : ∀ v ∈ values, isNumber v = true) :
    le 0 (sum (values.map square)) = true := by
  refine zero_le_foldl_add Cumulative.zero_le_zero fun s hs => ?_
  obtain ⟨v, hv, rfl⟩ := List.mem_map.mp hs
  exact Absorbing.zero_le_square (h v hv)

end Scalar

end BeamOptics
