import Mathlib.Analysis.InnerProductSpace.PiL2
import BeamOptics.Proofs.Exact.LeastSquares

/-!
# The truncated pseudo-inverse

A matrix with small singular values is solved as if they were zero. In the coordinates of the singular vectors this is
one equation for each singular value, so the solution is the shortest of those that come closest. What is obtained does
not depend on the decomposition: two of the same matrix differ by an orthogonal matrix that mixes only vectors of one
singular value.
-/

namespace BeamOptics

open Matrix

variable {n : Nat}

/-- The shortest vector among those that a matrix takes closest to `b`. -/
structure IsShortestSolution (a : Matrix (Fin n) (Fin n) ℝ) (b x : Fin n → ℝ) : Prop where
  closest : ∀ y, ‖WithLp.toLp 2 (a *ᵥ x - b)‖ ≤ ‖WithLp.toLp 2 (a *ᵥ y - b)‖
  shortest : ∀ y, (∀ z, ‖WithLp.toLp 2 (a *ᵥ y - b)‖ ≤ ‖WithLp.toLp 2 (a *ᵥ z - b)‖) →
    ‖WithLp.toLp 2 x‖ ≤ ‖WithLp.toLp 2 y‖

theorem norm_le_norm_iff_dotProduct (v w : Fin n → ℝ) :
    ‖WithLp.toLp 2 v‖ ≤ ‖WithLp.toLp 2 w‖ ↔ v ⬝ᵥ v ≤ w ⬝ᵥ w := by
  have hnorm (u : Fin n → ℝ) : ‖WithLp.toLp 2 u‖ ^ 2 = u ⬝ᵥ u := by
    rw [EuclideanSpace.real_norm_sq_eq, dotProduct]
    exact Finset.sum_congr rfl fun i _ => sq (u i)
  rw [← hnorm, ← hnorm]
  exact (sq_le_sq₀ (norm_nonneg _) (norm_nonneg _)).symm

/-- What has orthonormal columns keeps products of vectors. -/
theorem dotProduct_mulVec_mulVec {q : Matrix (Fin n) (Fin n) ℝ} (hq : qᵀ * q = 1) (v w : Fin n → ℝ) :
    (q *ᵥ v) ⬝ᵥ (q *ᵥ w) = v ⬝ᵥ w := by
  rw [dotProduct_mulVec, ← mulVec_transpose, mulVec_mulVec, hq, one_mulVec]

namespace Svd

open SquareMatrix

/-- The matrix of a decomposition with the singular values that are not above the threshold times the largest one set
to zero. -/
noncomputable def truncated (d : Svd ℝ n) (threshold : ℝ) : Matrix (Fin n) (Fin n) ℝ :=
  toMatrix d.left *
    diagonal (fun i => if threshold * d.largest < entries d.values i then entries d.values i else 0) *
      toMatrix d.right

/-- The matrix that takes right-hand sides to solutions. -/
noncomputable def pseudoInverse (d : Svd ℝ n) (threshold : ℝ) : Matrix (Fin n) (Fin n) ℝ :=
  (toMatrix d.right)ᵀ * diagonal (entries (inverses d.values threshold)) * (toMatrix d.left)ᵀ

theorem entries_solve_eq_pseudoInverse (d : Svd ℝ n) (threshold : ℝ) (rhs : Vector ℝ n) :
    entries (d.solve rhs threshold) = d.pseudoInverse threshold *ᵥ entries rhs := by
  rw [solve, entries_act, toMatrix_transpose, entries_zipWith_mul, entries_act, toMatrix_transpose, mulVec_mulVec,
    mulVec_mulVec, pseudoInverse, Matrix.mul_assoc]

theorem largest_eq (d : Svd ℝ n) (hn : 0 < n) : d.largest = entries d.values ⟨0, hn⟩ := by
  rw [largest, Vector.getElem?_eq_getElem hn]
  rfl

namespace IsExact

variable {d d' : Svd ℝ n} {m : SquareMatrix ℝ n} {threshold : ℝ}

theorem right_transpose_mul (h : d.IsExact m) : (toMatrix d.right)ᵀ * toMatrix d.right = 1 :=
  mul_eq_one_comm.mp h.right

theorem left_mul_transpose (h : d.IsExact m) : toMatrix d.left * (toMatrix d.left)ᵀ = 1 :=
  mul_eq_one_comm.mp h.left

theorem largest_nonneg (h : d.IsExact m) : 0 ≤ d.largest := by
  by_cases hn : 0 < n
  · rw [d.largest_eq hn]
    exact h.nonneg _
  · obtain rfl : n = 0 := by omega
    exact le_rfl

theorem le_largest (h : d.IsExact m) (i : Fin n) : entries d.values i ≤ d.largest := by
  rw [d.largest_eq i.pos]
  exact h.descending (Fin.mk_le_of_le_val (Nat.zero_le _))

/-- A singular value above the threshold is never zero. -/
theorem values_pos (h : d.IsExact m) (hthreshold : 0 ≤ threshold) {i : Fin n}
    (hi : threshold * d.largest < entries d.values i) : 0 < entries d.values i :=
  lt_of_le_of_lt (mul_nonneg hthreshold h.largest_nonneg) hi

theorem kept_iff (h : d.IsExact m) (hthreshold : 0 ≤ threshold) (i : Fin n) :
    d.Kept threshold i ↔ threshold * d.largest < entries d.values i := by
  constructor
  · exact fun hkept => hkept.2
  · intro hi
    exact ⟨lt_of_lt_of_le (h.values_pos hthreshold hi) (h.le_largest i), hi⟩

theorem entries_inverses (h : d.IsExact m) (hthreshold : 0 ≤ threshold) (i : Fin n) :
    entries (inverses d.values threshold) i =
      if threshold * d.largest < entries d.values i then 1 / entries d.values i else 0 := by
  rw [Svd.entries_inverses, indicator]
  by_cases hi : threshold * d.largest < entries d.values i
  · rw [if_pos ((h.kept_iff hthreshold i).mpr hi), if_pos hi, one_mul]
  · rw [if_neg fun hkept => hi hkept.2, if_neg hi, zero_mul]

/-! ### The solution is the shortest of the closest -/

theorem dotProduct_self_right (h : d.IsExact m) (y : Fin n → ℝ) :
    y ⬝ᵥ y = ∑ i, (toMatrix d.right *ᵥ y) i ^ 2 := by
  rw [← dotProduct_mulVec_mulVec h.right_transpose_mul, dotProduct]
  exact Finset.sum_congr rfl fun i _ => (sq _).symm

/-- What the truncated matrix misses, one singular value at a time. -/
theorem dotProduct_truncated_sub (h : d.IsExact m) (threshold : ℝ) (b y : Fin n → ℝ) :
    (d.truncated threshold *ᵥ y - b) ⬝ᵥ (d.truncated threshold *ᵥ y - b) =
      ∑ i, ((if threshold * d.largest < entries d.values i then entries d.values i else 0) *
        (toMatrix d.right *ᵥ y) i - ((toMatrix d.left)ᵀ *ᵥ b) i) ^ 2 := by
  have hleft : (toMatrix d.left)ᵀᵀ * (toMatrix d.left)ᵀ = 1 := by
    rw [transpose_transpose]
    exact h.left_mul_transpose
  rw [← dotProduct_mulVec_mulVec hleft, mulVec_sub, truncated, ← mulVec_mulVec, ← mulVec_mulVec, mulVec_mulVec,
    h.left, one_mulVec, dotProduct]
  apply Finset.sum_congr rfl
  intro i _
  rw [Pi.sub_apply, mulVec_diagonal, sq]

theorem right_mulVec_solve (h : d.IsExact m) (hthreshold : 0 ≤ threshold) (rhs : Vector ℝ n) (i : Fin n) :
    (toMatrix d.right *ᵥ entries (d.solve rhs threshold)) i =
      if threshold * d.largest < entries d.values i then
        ((toMatrix d.left)ᵀ *ᵥ entries rhs) i / entries d.values i
      else 0 := by
  rw [entries_solve_eq_pseudoInverse, pseudoInverse, Matrix.mul_assoc, mulVec_mulVec, ← Matrix.mul_assoc, h.right,
    Matrix.one_mul, ← mulVec_mulVec, mulVec_diagonal, h.entries_inverses hthreshold]
  by_cases hi : threshold * d.largest < entries d.values i
  · rw [if_pos hi, if_pos hi]
    ring
  · rw [if_neg hi, if_neg hi, zero_mul]

theorem isShortestSolution_solve (h : d.IsExact m) (hthreshold : 0 ≤ threshold) (rhs : Vector ℝ n) :
    IsShortestSolution (d.truncated threshold) (entries rhs) (entries (d.solve rhs threshold)) := by
  -- the solution meets every equation that is kept, and the others do not depend on the vector
  have hterm (y : Fin n → ℝ) (i : Fin n) :
      ((if threshold * d.largest < entries d.values i then entries d.values i else 0) *
          (toMatrix d.right *ᵥ entries (d.solve rhs threshold)) i - ((toMatrix d.left)ᵀ *ᵥ entries rhs) i) ^ 2 ≤
        ((if threshold * d.largest < entries d.values i then entries d.values i else 0) *
          (toMatrix d.right *ᵥ y) i - ((toMatrix d.left)ᵀ *ᵥ entries rhs) i) ^ 2 := by
    rw [h.right_mulVec_solve hthreshold]
    by_cases hi : threshold * d.largest < entries d.values i
    · rw [if_pos hi, if_pos hi, mul_div_cancel₀ _ (h.values_pos hthreshold hi).ne', sub_self, zero_pow two_ne_zero]
      exact sq_nonneg _
    · rw [if_neg hi, if_neg hi, zero_mul, zero_mul]
  have hclosest (y : Fin n → ℝ) :
      (d.truncated threshold *ᵥ entries (d.solve rhs threshold) - entries rhs) ⬝ᵥ
          (d.truncated threshold *ᵥ entries (d.solve rhs threshold) - entries rhs) ≤
        (d.truncated threshold *ᵥ y - entries rhs) ⬝ᵥ (d.truncated threshold *ᵥ y - entries rhs) := by
    rw [h.dotProduct_truncated_sub, h.dotProduct_truncated_sub]
    exact Finset.sum_le_sum fun i _ => hterm y i
  refine ⟨fun y => (norm_le_norm_iff_dotProduct _ _).mpr (hclosest y), ?_⟩
  intro y hy
  have hequal := le_antisymm (hclosest y) ((norm_le_norm_iff_dotProduct _ _).mp (hy _))
  rw [h.dotProduct_truncated_sub, h.dotProduct_truncated_sub] at hequal
  have hterms := (Finset.sum_eq_sum_iff_of_le fun i _ => hterm y i).mp hequal
  rw [norm_le_norm_iff_dotProduct, h.dotProduct_self_right, h.dotProduct_self_right]
  apply Finset.sum_le_sum
  intro i _
  have hi := hterms i (Finset.mem_univ i)
  rw [h.right_mulVec_solve hthreshold] at hi ⊢
  by_cases hkept : threshold * d.largest < entries d.values i
  · have hvalue := (h.values_pos hthreshold hkept).ne'
    rw [if_pos hkept, if_pos hkept, mul_div_cancel₀ _ hvalue, sub_self, zero_pow two_ne_zero, eq_comm,
      sq_eq_zero_iff, sub_eq_zero] at hi
    rw [if_pos hkept, ← hi, mul_div_cancel_left₀ _ hvalue]
  · rw [if_neg hkept, zero_pow two_ne_zero]
    exact sq_nonneg _

/-! ### Two decompositions of one matrix -/

/-- A decomposition gives the product of a matrix with its transpose by the squares of the singular values. -/
theorem transpose_mul_self (h : d.IsExact m) :
    (toMatrix m)ᵀ * toMatrix m =
      (toMatrix d.right)ᵀ * diagonal (fun i => entries d.values i ^ 2) * toMatrix d.right := by
  have hsquare : diagonal (fun i => entries d.values i ^ 2) =
      diagonal (entries d.values) * diagonal (entries d.values) := by
    rw [diagonal_mul_diagonal]
    exact congrArg diagonal (funext fun i => sq _)
  calc (toMatrix m)ᵀ * toMatrix m
      = (toMatrix d.right)ᵀ * diagonal (entries d.values) * ((toMatrix d.left)ᵀ * toMatrix d.left) *
          diagonal (entries d.values) * toMatrix d.right := by
        rw [h.product, transpose_mul, transpose_mul, diagonal_transpose]
        simp only [Matrix.mul_assoc]
    _ = _ := by
        rw [h.left, Matrix.mul_one, hsquare]
        simp only [Matrix.mul_assoc]

/-- The matrix that changes from the right singular vectors of one decomposition to those of the other. -/
noncomputable def change (d d' : Svd ℝ n) : Matrix (Fin n) (Fin n) ℝ := toMatrix d'.right * (toMatrix d.right)ᵀ

theorem change_mul_transpose (h : d.IsExact m) (h' : d'.IsExact m) : change d d' * (change d d')ᵀ = 1 := by
  rw [change, transpose_mul, transpose_transpose, Matrix.mul_assoc, ← Matrix.mul_assoc _ _ (toMatrix d'.right)ᵀ,
    h.right_transpose_mul, Matrix.one_mul, h'.right]

/-- The change mixes only vectors of one singular value. -/
theorem values_eq_of_change_ne_zero (h : d.IsExact m) (h' : d'.IsExact m) {i j : Fin n} (hij : change d d' i j ≠ 0) :
    entries d.values j = entries d'.values i := by
  have hchange : change d d' * diagonal (fun i => entries d.values i ^ 2) =
      diagonal (fun i => entries d'.values i ^ 2) * change d d' := by
    calc change d d' * diagonal (fun i => entries d.values i ^ 2)
        = toMatrix d'.right * ((toMatrix d.right)ᵀ * diagonal (fun i => entries d.values i ^ 2) *
            toMatrix d.right) * (toMatrix d.right)ᵀ := by
          rw [change]
          simp only [Matrix.mul_assoc]
          rw [h.right, Matrix.mul_one]
      _ = toMatrix d'.right * ((toMatrix d'.right)ᵀ * diagonal (fun i => entries d'.values i ^ 2) *
            toMatrix d'.right) * (toMatrix d.right)ᵀ := by
          rw [← h.transpose_mul_self, h'.transpose_mul_self]
      _ = diagonal (fun i => entries d'.values i ^ 2) * change d d' := by
          rw [change]
          simp only [← Matrix.mul_assoc]
          rw [h'.right, Matrix.one_mul]
  have hentry := congrFun (congrFun hchange i) j
  rw [mul_diagonal, diagonal_mul, mul_comm] at hentry
  exact (pow_left_inj₀ (h.nonneg j) (h'.nonneg i) two_ne_zero).mp (mul_right_cancel₀ hij hentry)

/-- A function of the singular values belongs to the matrix and not to its decomposition. -/
theorem conjugate_eq (h : d.IsExact m) (h' : d'.IsExact m) (f : ℝ → ℝ) :
    (toMatrix d'.right)ᵀ * diagonal (fun i => f (entries d'.values i)) * toMatrix d'.right =
      (toMatrix d.right)ᵀ * diagonal (fun i => f (entries d.values i)) * toMatrix d.right := by
  have hchange : change d d' * diagonal (fun i => f (entries d.values i)) =
      diagonal (fun i => f (entries d'.values i)) * change d d' := by
    ext i j
    rw [mul_diagonal, diagonal_mul]
    by_cases hij : change d d' i j = 0
    · rw [hij, zero_mul, mul_zero]
    · rw [h.values_eq_of_change_ne_zero h' hij, mul_comm]
  calc (toMatrix d'.right)ᵀ * diagonal (fun i => f (entries d'.values i)) * toMatrix d'.right
      = (toMatrix d'.right)ᵀ * (diagonal (fun i => f (entries d'.values i)) * change d d') * toMatrix d.right := by
        rw [change]
        simp only [Matrix.mul_assoc]
        rw [h.right_transpose_mul, Matrix.mul_one]
    _ = (toMatrix d'.right)ᵀ * (change d d' * diagonal (fun i => f (entries d.values i))) * toMatrix d.right := by
        rw [hchange]
    _ = _ := by
        rw [change]
        simp only [← Matrix.mul_assoc]
        rw [h'.right_transpose_mul, Matrix.one_mul]

theorem largest_le (h : d.IsExact m) (h' : d'.IsExact m) : d'.largest ≤ d.largest := by
  by_cases hn : 0 < n
  · obtain ⟨j, hj⟩ : ∃ j, change d d' ⟨0, hn⟩ j ≠ 0 := by
      by_contra hzero
      push Not at hzero
      have hone := congrFun (congrFun (change_mul_transpose h h') ⟨0, hn⟩) ⟨0, hn⟩
      rw [mul_apply, one_apply_eq] at hone
      refine zero_ne_one (hone ▸ (Finset.sum_eq_zero fun j _ => ?_).symm)
      rw [hzero j, zero_mul]
    rw [d'.largest_eq hn, ← h.values_eq_of_change_ne_zero h' hj]
    exact h.le_largest j
  · obtain rfl : n = 0 := by omega
    exact le_rfl

theorem largest_eq_largest (h : d.IsExact m) (h' : d'.IsExact m) : d'.largest = d.largest :=
  le_antisymm (h.largest_le h') (h'.largest_le h)

theorem truncated_eq (h : d.IsExact m) (threshold : ℝ) :
    d.truncated threshold =
      toMatrix m * ((toMatrix d.right)ᵀ *
        diagonal (fun i => if threshold * d.largest < entries d.values i then 1 else 0) * toMatrix d.right) := by
  have hdiagonal : diagonal (fun i => if threshold * d.largest < entries d.values i then entries d.values i else 0) =
      diagonal (entries d.values) *
        diagonal (fun i => if threshold * d.largest < entries d.values i then (1 : ℝ) else 0) := by
    rw [diagonal_mul_diagonal]
    exact congrArg diagonal (funext fun i => by rw [mul_ite, mul_one, mul_zero])
  calc d.truncated threshold
      = toMatrix d.left * diagonal (entries d.values) * (toMatrix d.right * (toMatrix d.right)ᵀ) *
          diagonal (fun i => if threshold * d.largest < entries d.values i then 1 else 0) * toMatrix d.right := by
        rw [truncated, hdiagonal, h.right, Matrix.mul_one]
        simp only [Matrix.mul_assoc]
    _ = _ := by
        rw [h.product]
        simp only [Matrix.mul_assoc]

theorem pseudoInverse_eq (h : d.IsExact m) (hthreshold : 0 ≤ threshold) :
    d.pseudoInverse threshold =
      (toMatrix d.right)ᵀ *
        diagonal (fun i => if threshold * d.largest < entries d.values i then 1 / entries d.values i ^ 2 else 0) *
          toMatrix d.right * (toMatrix m)ᵀ := by
  have hdiagonal : diagonal (entries (inverses d.values threshold)) =
      diagonal (fun i => if threshold * d.largest < entries d.values i then 1 / entries d.values i ^ 2 else 0) *
        diagonal (entries d.values) := by
    rw [diagonal_mul_diagonal]
    congr 1
    funext i
    rw [h.entries_inverses hthreshold]
    by_cases hi : threshold * d.largest < entries d.values i
    · have hvalue := (h.values_pos hthreshold hi).ne'
      rw [if_pos hi, if_pos hi]
      field_simp
    · rw [if_neg hi, if_neg hi, zero_mul]
  have htranspose : (toMatrix m)ᵀ = (toMatrix d.right)ᵀ * (diagonal (entries d.values) * (toMatrix d.left)ᵀ) := by
    rw [h.product, transpose_mul, transpose_mul, diagonal_transpose]
  rw [pseudoInverse, hdiagonal, htranspose]
  simp only [Matrix.mul_assoc]
  rw [← Matrix.mul_assoc (toMatrix d.right) (toMatrix d.right)ᵀ, h.right, Matrix.one_mul]

theorem truncated_eq_truncated (h : d.IsExact m) (h' : d'.IsExact m) (threshold : ℝ) :
    d'.truncated threshold = d.truncated threshold := by
  rw [h.truncated_eq, h'.truncated_eq, largest_eq_largest h h']
  exact congrArg _ (h.conjugate_eq h' fun a => if threshold * d.largest < a then 1 else 0)

theorem solve_eq_solve (h : d.IsExact m) (h' : d'.IsExact m) (hthreshold : 0 ≤ threshold) (rhs : Vector ℝ n) :
    d'.solve rhs threshold = d.solve rhs threshold := by
  apply entries_injective
  rw [entries_solve_eq_pseudoInverse, entries_solve_eq_pseudoInverse, h.pseudoInverse_eq hthreshold,
    h'.pseudoInverse_eq hthreshold, largest_eq_largest h h']
  rw [h.conjugate_eq h' fun a => if threshold * d.largest < a then 1 / a ^ 2 else 0]

end IsExact

/-! ### Solving -/

/-- What solving with a decomposition gives, for any threshold that is not negative. The solution is the shortest of
those that the truncated matrix takes closest to the right-hand side, and it is linear in that side. Neither the
truncated matrix nor the solution depends on the decomposition. If the matrix is invertible and no singular value is
discarded, the equation is met. And the solver divides by positive singular values only, also if there are none. -/
theorem solve_inverts_truncated_matrix {d : Svd ℝ n} {m : SquareMatrix ℝ n} {threshold : ℝ} (h : d.IsExact m)
    (hthreshold : 0 ≤ threshold) :
    (∀ rhs, IsShortestSolution (d.truncated threshold) (entries rhs) (entries (d.solve rhs threshold))) ∧
      (∃ f : (Fin n → ℝ) →ₗ[ℝ] Fin n → ℝ, ∀ rhs, entries (d.solve rhs threshold) = f (entries rhs)) ∧
      (∀ d' : Svd ℝ n, d'.IsExact m → d'.truncated threshold = d.truncated threshold ∧
        ∀ rhs, d'.solve rhs threshold = d.solve rhs threshold) ∧
      (IsUnit (toMatrix m) → (∀ i, threshold * d.largest < entries d.values i) →
        ∀ rhs, m.act (d.solve rhs threshold) = rhs) ∧
      ∀ i, entries (inverses d.values threshold) i =
          (if threshold * d.largest < entries d.values i then 1 / entries d.values i else 0) ∧
        (threshold * d.largest < entries d.values i → 0 < entries d.values i) := by
  refine ⟨h.isShortestSolution_solve hthreshold, ?_, ?_, ?_, ?_⟩
  · exact ⟨(d.pseudoInverse threshold).mulVecLin, d.entries_solve_eq_pseudoInverse threshold⟩
  · intro d' h'
    exact ⟨h.truncated_eq_truncated h' threshold, h.solve_eq_solve h' hthreshold⟩
  · intro _ hall rhs
    have hkept (i : Fin n) : d.Kept threshold i := (h.kept_iff hthreshold i).mpr (hall i)
    apply entries_injective
    rw [entries_act, h.mulVec_solve hthreshold, h.residue_eq_zero hkept, sub_zero]
  · intro i
    exact ⟨h.entries_inverses hthreshold i, h.values_pos hthreshold⟩

end Svd

namespace SkewMatrix

open SquareMatrix

/-- Exchanges two coordinates. -/
def swap : SquareMatrix ℝ 2 := ofFn fun i j => if i = j then 0 else 1

/-- The second coordinate, and three times the first. -/
def matrix : SquareMatrix ℝ 2 := ofFn fun i j => if i = j then 0 else if i = 0 then 1 else 3

def scaled (a : ℝ) (m : SquareMatrix ℝ 2) : SquareMatrix ℝ 2 := ofFn fun i j => a * m.entry i j

/-- Two decompositions, for the two signs. -/
noncomputable def decomposition (sign : ℝ) : Svd ℝ 2 := ⟨scaled sign swap, #v[3, 1], scaled sign identity⟩

theorem toMatrix_fin_two (f : Fin 2 → Fin 2 → ℝ) : toMatrix (ofFn f) = !![f 0 0, f 0 1; f 1 0, f 1 1] := by
  rw [toMatrix_ofFn]
  exact Matrix.eta_fin_two _

theorem isExact_decomposition {sign : ℝ} (hsign : sign * sign = 1) : (decomposition sign).IsExact matrix := by
  have hleft : toMatrix (decomposition sign).left = !![0, sign; sign, 0] := by
    simp [decomposition, scaled, swap, toMatrix_fin_two]
  have hright : toMatrix (decomposition sign).right = !![sign, 0; 0, sign] := by
    simp [decomposition, scaled, identity, toMatrix_fin_two]
  have hmatrix : toMatrix matrix = !![0, 1; 3, 0] := by simp [matrix, toMatrix_fin_two]
  have hvalues : entries (decomposition sign).values = ![3, 1] := by
    ext i
    fin_cases i <;> rfl
  have hdiagonal : diagonal ![(3 : ℝ), 1] = !![3, 0; 0, 1] := by
    rw [Matrix.eta_fin_two (diagonal ![(3 : ℝ), 1])]
    simp
  have htranspose (a b c e : ℝ) : !![a, b; c, e]ᵀ = !![a, c; b, e] := by
    rw [Matrix.eta_fin_two (!![a, b; c, e]ᵀ)]
    rfl
  refine ⟨?_, ?_, ?_, ?_, ?_⟩
  · rw [hleft, htranspose, Matrix.mul_fin_two, Matrix.one_fin_two]
    simp [hsign]
  · rw [hright, htranspose, Matrix.mul_fin_two, Matrix.one_fin_two]
    simp [hsign]
  · have hthree : sign * 3 * sign = 3 := by linear_combination 3 * hsign
    rw [hleft, hright, hvalues, hmatrix, hdiagonal, Matrix.mul_fin_two, Matrix.mul_fin_two]
    simp [hsign, hthree]
  · intro i
    rw [hvalues]
    fin_cases i <;> simp
  · rw [hvalues]
    intro i j hij
    fin_cases i <;> fin_cases j <;> simp_all

end SkewMatrix

namespace Svd

open SkewMatrix SquareMatrix in
theorem solve_inverts_truncated_matrix_skew :
    (decomposition 1).IsExact matrix ∧ (decomposition (-1)).IsExact matrix ∧ (0 : ℝ) ≤ 1 / 2 ∧
      IsShortestSolution ((decomposition 1).truncated (1 / 2)) ![5, 6]
        (entries ((decomposition 1).solve #v[5, 6] (1 / 2))) ∧
      (decomposition (-1)).solve #v[5, 6] (1 / 2) = (decomposition 1).solve #v[5, 6] (1 / 2) ∧
      entries (inverses (decomposition 1).values (1 / 2)) = ![1 / 3, 0] := by
  have hexact : (decomposition 1).IsExact matrix := isExact_decomposition (one_mul 1)
  have hexact' : (decomposition (-1)).IsExact matrix := isExact_decomposition (by norm_num)
  have hthreshold : (0 : ℝ) ≤ 1 / 2 := by norm_num
  obtain ⟨hshortest, -, hsame, -, hinverses⟩ := solve_inverts_truncated_matrix hexact hthreshold
  have hrhs : entries #v[(5 : ℝ), 6] = ![5, 6] := by
    ext i
    fin_cases i <;> rfl
  refine ⟨hexact, hexact', hthreshold, hrhs ▸ hshortest #v[5, 6], (hsame _ hexact').2 _, ?_⟩
  ext i
  rw [(hinverses i).1]
  have hlargest : (decomposition 1).largest = 3 := rfl
  fin_cases i
  · have hvalue : entries (decomposition 1).values 0 = 3 := rfl
    simp [hlargest, hvalue]
    norm_num
  · have hvalue : entries (decomposition 1).values 1 = 1 := rfl
    simp [hlargest, hvalue]
    norm_num

end Svd

end BeamOptics
