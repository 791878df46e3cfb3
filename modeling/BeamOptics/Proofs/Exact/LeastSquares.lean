import Mathlib.Algebra.Group.Pi.Units
import Mathlib.LinearAlgebra.Matrix.NonsingularInverse
import BeamOptics.Proofs.Exact.Vector

/-!
# Least squares in exact arithmetic

With an exact decomposition the truncated inverse reproduces the part of a right-hand side along the left singular
vectors that are kept, and finds nothing in the rest.
-/

namespace BeamOptics

namespace Svd

open Matrix SquareMatrix

variable {n : Nat}

/-- A singular-value decomposition of a matrix, without rounding. -/
structure IsExact (d : Svd ℝ n) (m : SquareMatrix ℝ n) : Prop where
  left : (toMatrix d.left)ᵀ * toMatrix d.left = 1
  right : toMatrix d.right * (toMatrix d.right)ᵀ = 1
  product : toMatrix m = toMatrix d.left * diagonal (entries d.values) * toMatrix d.right
  nonneg : ∀ i, 0 ≤ entries d.values i
  descending : Antitone (entries d.values)

/-- The first singular value, zero if there is none. -/
def largest (d : Svd ℝ n) : ℝ := d.values[0]?.getD 0

/-- Whether a singular value counts: it is above the threshold times the largest one. -/
def Kept (d : Svd ℝ n) (threshold : ℝ) (i : Fin n) : Prop :=
  0 < d.largest ∧ threshold * d.largest < entries d.values i

def leftVector (d : Svd ℝ n) (i : Fin n) : Fin n → ℝ := fun k => d.left.entry k i

open Classical in
/-- What is left of a vector besides its projection on the left singular vectors that are kept. -/
noncomputable def residue (d : Svd ℝ n) (threshold : ℝ) (r : Fin n → ℝ) : Fin n → ℝ :=
  r - ∑ i with d.Kept threshold i, (d.leftVector i ⬝ᵥ r) • d.leftVector i

open Classical in
/-- One for the singular values that are kept, zero for the others. -/
noncomputable def indicator (d : Svd ℝ n) (threshold : ℝ) : Fin n → ℝ :=
  fun i => if d.Kept threshold i then 1 else 0

theorem residue_eq (d : Svd ℝ n) (threshold : ℝ) (r : Fin n → ℝ) :
    d.residue threshold r =
      r - toMatrix d.left *ᵥ (diagonal (d.indicator threshold) *ᵥ ((toMatrix d.left)ᵀ *ᵥ r)) := by
  have hcomponent (i : Fin n) : ((toMatrix d.left)ᵀ *ᵥ r) i = d.leftVector i ⬝ᵥ r := rfl
  unfold residue
  congr 1
  funext k
  rw [Finset.sum_apply, Finset.sum_filter, mulVec, dotProduct]
  apply Finset.sum_congr rfl
  intro i _
  rw [mulVec_diagonal, hcomponent, indicator]
  by_cases hkept : d.Kept threshold i
  · rw [if_pos hkept, if_pos hkept, one_mul, Pi.smul_apply, smul_eq_mul]
    exact mul_comm _ _
  · rw [if_neg hkept, if_neg hkept, zero_mul, mul_zero]

theorem entries_inverses (d : Svd ℝ n) (threshold : ℝ) (i : Fin n) :
    entries (inverses d.values threshold) i = d.indicator threshold i * (1 / entries d.values i) := by
  have hsome : d.values[0]? = some d.largest := by
    have hn : 0 < n := i.pos
    simp [largest, hn]
  unfold inverses
  rw [hsome]
  by_cases hpositive : 0 < d.largest
  · have hentry : entries (d.values.map fun s => if Scalar.lt (threshold * d.largest) s then 1 / s else 0) i =
        if threshold * d.largest < entries d.values i then 1 / entries d.values i else 0 := by
      rw [entries_map]
      simp only [Scalar.lt_real, decide_eq_true_eq]
    simp only [Scalar.lt_real, hpositive, decide_true, if_true]
    refine hentry.trans ?_
    by_cases hkept : threshold * d.largest < entries d.values i
    · rw [if_pos hkept, indicator, if_pos ⟨hpositive, hkept⟩, one_mul]
    · rw [if_neg hkept, indicator, if_neg fun h => hkept h.2, zero_mul]
  · have hentry : entries (d.values.map fun _ => (0 : ℝ)) i = 0 := entries_map _ _ i
    simp only [Scalar.lt_real, hpositive, decide_false, Bool.false_eq_true, if_false]
    refine hentry.trans ?_
    rw [indicator, if_neg fun h => hpositive h.1, zero_mul]

theorem entries_solve (d : Svd ℝ n) (rhs : Vector ℝ n) (threshold : ℝ) :
    entries (d.solve rhs threshold) =
      (toMatrix d.right)ᵀ *ᵥ (diagonal (fun i => d.indicator threshold i * (1 / entries d.values i)) *ᵥ
        ((toMatrix d.left)ᵀ *ᵥ entries rhs)) := by
  have hinverses : entries (inverses d.values threshold) =
      fun i => d.indicator threshold i * (1 / entries d.values i) := funext (d.entries_inverses threshold)
  rw [solve, entries_act, toMatrix_transpose, entries_zipWith_mul, entries_act, toMatrix_transpose, hinverses]

/-! ### What the solution reproduces -/

namespace IsExact

variable {d : Svd ℝ n} {m : SquareMatrix ℝ n} {threshold : ℝ}

theorem values_mul_inverses (hthreshold : 0 ≤ threshold) (i : Fin n) :
    entries d.values i * (d.indicator threshold i * (1 / entries d.values i)) = d.indicator threshold i := by
  by_cases hkept : d.Kept threshold i
  · have hpositive : 0 < entries d.values i :=
      lt_of_le_of_lt (mul_nonneg hthreshold hkept.1.le) hkept.2
    rw [indicator, if_pos hkept, one_mul]
    exact mul_one_div_cancel hpositive.ne'
  · rw [indicator, if_neg hkept, zero_mul, mul_zero]

/-- The matrix takes the solution to the part of the right-hand side that is not residue. -/
theorem mulVec_solve (h : d.IsExact m) (hthreshold : 0 ≤ threshold) (rhs : Vector ℝ n) :
    toMatrix m *ᵥ entries (d.solve rhs threshold) = entries rhs - d.residue threshold (entries rhs) := by
  have hdiagonal : diagonal (entries d.values) *
      diagonal (fun i => d.indicator threshold i * (1 / entries d.values i)) = diagonal (d.indicator threshold) := by
    rw [diagonal_mul_diagonal]
    exact congrArg diagonal (funext (values_mul_inverses hthreshold))
  calc toMatrix m *ᵥ entries (d.solve rhs threshold)
      = toMatrix d.left *ᵥ ((diagonal (entries d.values) *
          diagonal (fun i => d.indicator threshold i * (1 / entries d.values i))) *ᵥ
            ((toMatrix d.left)ᵀ *ᵥ entries rhs)) := by
        rw [entries_solve, h.product, ← mulVec_mulVec, ← mulVec_mulVec, mulVec_mulVec _ (toMatrix d.right),
          h.right, one_mulVec, mulVec_mulVec _ (diagonal (entries d.values))]
    _ = entries rhs - d.residue threshold (entries rhs) := by
        rw [hdiagonal, residue_eq, sub_sub_cancel]

theorem entries_solve_residue (h : d.IsExact m) {rhs : Vector ℝ n} {r : Fin n → ℝ}
    (hrhs : entries rhs = d.residue threshold r) : entries (d.solve rhs threshold) = 0 := by
  have hcomponents : (toMatrix d.left)ᵀ *ᵥ d.residue threshold r =
      (fun i => 1 - d.indicator threshold i) * ((toMatrix d.left)ᵀ *ᵥ r) := by
    rw [residue_eq, mulVec_sub, mulVec_mulVec, h.left, one_mulVec]
    funext i
    rw [Pi.sub_apply, mulVec_diagonal, Pi.mul_apply, sub_mul, one_mul]
  have hzero : diagonal (fun i => d.indicator threshold i * (1 / entries d.values i)) *ᵥ
      ((fun i => 1 - d.indicator threshold i) * ((toMatrix d.left)ᵀ *ᵥ r)) = 0 := by
    funext i
    rw [mulVec_diagonal, Pi.mul_apply, indicator]
    by_cases hkept : d.Kept threshold i <;> simp [hkept]
  rw [entries_solve, hrhs, hcomponents, hzero, mulVec_zero]

theorem residue_dotProduct_le (h : d.IsExact m) (r : Fin n → ℝ) :
    d.residue threshold r ⬝ᵥ d.residue threshold r ≤ r ⬝ᵥ r := by
  have hleft (v w : Fin n → ℝ) : v ⬝ᵥ (toMatrix d.left *ᵥ w) = ((toMatrix d.left)ᵀ *ᵥ v) ⬝ᵥ w := by
    rw [dotProduct_mulVec, mulVec_transpose]
  -- the projection is as long as the kept components, and so is its product with the vector
  have hprojection (w : Fin n → ℝ) : (toMatrix d.left *ᵥ w) ⬝ᵥ (toMatrix d.left *ᵥ w) = w ⬝ᵥ w := by
    rw [hleft, mulVec_mulVec, h.left, one_mulVec]
  have hkept (w : Fin n → ℝ) : (diagonal (d.indicator threshold) *ᵥ w) ⬝ᵥ (diagonal (d.indicator threshold) *ᵥ w) =
      w ⬝ᵥ (diagonal (d.indicator threshold) *ᵥ w) := by
    apply Finset.sum_congr rfl
    intro i _
    rw [mulVec_diagonal, indicator]
    by_cases hi : d.Kept threshold i <;> simp [hi]
  have hnonneg (w : Fin n → ℝ) : 0 ≤ w ⬝ᵥ (diagonal (d.indicator threshold) *ᵥ w) := by
    rw [← hkept]
    exact Finset.sum_nonneg fun i _ => mul_self_nonneg _
  rw [residue_eq, sub_dotProduct, dotProduct_sub, dotProduct_sub, hprojection, hkept, hleft,
    dotProduct_comm (toMatrix d.left *ᵥ _) r, hleft]
  have hw := hnonneg ((toMatrix d.left)ᵀ *ᵥ r)
  linarith

/-! ### When nothing is discarded -/

theorem residue_eq_zero (h : d.IsExact m) (hkept : ∀ i, d.Kept threshold i) (r : Fin n → ℝ) :
    d.residue threshold r = 0 := by
  have hindicator : d.indicator threshold = 1 := by
    funext i
    rw [indicator, if_pos (hkept i), Pi.one_apply]
  have hleft : toMatrix d.left * (toMatrix d.left)ᵀ = 1 := mul_eq_one_comm.mp h.left
  rw [residue_eq, hindicator]
  rw [show diagonal (1 : Fin n → ℝ) = 1 from diagonal_one, one_mulVec, mulVec_mulVec, hleft, one_mulVec, sub_self]

theorem isUnit_toMatrix (h : d.IsExact m) (hthreshold : 0 ≤ threshold) (hkept : ∀ i, d.Kept threshold i) :
    IsUnit (toMatrix m) := by
  have hpositive (i : Fin n) : entries d.values i ≠ 0 :=
    (lt_of_le_of_lt (mul_nonneg hthreshold (hkept i).1.le) (hkept i).2).ne'
  have hleft : IsUnit (toMatrix d.left) := IsUnit.of_mul_eq_one_right _ h.left
  have hright : IsUnit (toMatrix d.right) := IsUnit.of_mul_eq_one _ h.right
  have hvalues : IsUnit (diagonal (entries d.values)) := by
    rw [isUnit_diagonal, Pi.isUnit_iff]
    exact fun i => (hpositive i).isUnit
  rw [h.product]
  exact (hleft.mul hvalues).mul hright

end IsExact

end Svd

end BeamOptics
