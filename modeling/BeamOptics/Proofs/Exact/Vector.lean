import Mathlib.Algebra.BigOperators.Fin
import Mathlib.LinearAlgebra.Matrix.DotProduct
import BeamOptics.LinearAlgebra.PseudoInverse
import BeamOptics.PhaseVector
import BeamOptics.Proofs.Exact.Real

/-!
# Real vectors and matrices

In exact arithmetic products of vectors are sums over coordinates, and matrices act and compose as they should.
-/

namespace BeamOptics

instance : Fintype Coordinate := ⟨⟨Coordinate.all, by decide⟩, fun c => by cases c <;> decide⟩

/-! ### Phase space -/

namespace PhaseVector

theorem sum_coordinates (f : Coordinate → ℝ) : ∑ c, f c = f .x + f .xp + f .y + f .yp + f .ct + f .dp := by
  change (Multiset.map f Coordinate.all).sum = _
  simp [Coordinate.all, add_assoc]

theorem dot_real (v w : PhaseVector ℝ) : v.dot w = ∑ c, v.get c * w.get c := by
  rw [sum_coordinates]
  rfl

theorem dot_add_real (u v w : PhaseVector ℝ) : u.dot (v + w) = u.dot v + u.dot w := by
  simp only [dot_real, get_add]
  rw [← Finset.sum_add_distrib]
  exact Finset.sum_congr rfl fun c _ => mul_add _ _ _

theorem add_zero_real (v : PhaseVector ℝ) : v + 0 = v := by
  apply ext_get
  intro c
  rw [get_add, get_zero]
  exact add_zero _

/-- Nothing but a path length. -/
def ofCt (a : ℝ) : PhaseVector ℝ := ⟨0, 0, 0, 0, a, 0⟩

theorem ofCt_zero : ofCt 0 = 0 := rfl

theorem ofCt_add (a b : ℝ) : ofCt a + ofCt b = ofCt (a + b) := by
  apply ext_get
  intro c
  rw [get_add]
  cases c with
  | ct => rfl
  | _ => exact add_zero _

theorem add_assoc_real (u v w : PhaseVector ℝ) : u + v + w = u + (v + w) := by
  apply ext_get
  intro c
  simp only [get_add]
  exact add_assoc _ _ _

end PhaseVector

namespace TransferMap

theorem act_add_real (m : TransferMap ℝ) (v w : PhaseVector ℝ) : m.act (v + w) = m.act v + m.act w := by
  apply PhaseVector.ext_get
  intro c
  simp only [get_act, PhaseVector.get_add]
  exact PhaseVector.dot_add_real _ _ _

theorem identity_act_real (v : PhaseVector ℝ) : (identity : TransferMap ℝ).act v = v := by
  apply PhaseVector.ext_get
  intro c
  rw [get_act, PhaseVector.dot_real]
  simp [identity]

theorem comp_act_real (m n : TransferMap ℝ) (v : PhaseVector ℝ) : (m.comp n).act v = m.act (n.act v) := by
  apply PhaseVector.ext_get
  intro c
  simp only [get_act, PhaseVector.dot_real, comp, PhaseVector.get_map, PhaseVector.get_ofFn, column]
  simp only [Finset.sum_mul, Finset.mul_sum]
  rw [Finset.sum_comm]
  exact Finset.sum_congr rfl fun d _ => Finset.sum_congr rfl fun e _ => mul_assoc _ _ _

end TransferMap

/-! ### Square matrices -/

namespace SquareMatrix

open Matrix

variable {n : Nat}

/-- A vector by its entries. -/
def entries (v : Vector ℝ n) : Fin n → ℝ := v.get

/-- A square matrix by its entries. -/
def toMatrix (m : SquareMatrix ℝ n) : Matrix (Fin n) (Fin n) ℝ := Matrix.of m.entry

theorem entries_ofFn (f : Fin n → ℝ) : entries (Vector.ofFn f) = f := by
  funext i
  exact Vector.getElem_ofFn i.isLt

theorem entries_map (f : ℝ → ℝ) (v : Vector ℝ n) (i : Fin n) : entries (v.map f) i = f (entries v i) :=
  Vector.getElem_map f i.isLt

theorem entries_injective {v w : Vector ℝ n} (h : entries v = entries w) : v = w := by
  apply Vector.ext
  intro i hi
  exact congrFun h ⟨i, hi⟩

theorem toMatrix_ofFn (f : Fin n → Fin n → ℝ) : toMatrix (ofFn f) = Matrix.of f := by
  funext i j
  exact entry_ofFn f i j

theorem toMatrix_transpose (m : SquareMatrix ℝ n) : toMatrix m.transpose = (toMatrix m)ᵀ := by
  funext i j
  exact entry_transpose m i j

theorem dot_real (v w : Vector ℝ n) : dot v w = entries v ⬝ᵥ entries w := by
  have hlist : (Vector.zipWith (· * ·) v w).toList = List.ofFn fun i => v[i] * w[i] := by
    apply List.ext_getElem (by simp)
    intro i hi hi'
    simp
  rw [dot, Scalar.sum_real, hlist, List.sum_ofFn]
  rfl

theorem dot_self_nonneg (v : Vector ℝ n) : 0 ≤ dot v v := by
  rw [dot_real]
  exact Finset.sum_nonneg fun i _ => mul_self_nonneg _

theorem entries_act (m : SquareMatrix ℝ n) (v : Vector ℝ n) : entries (act m v) = toMatrix m *ᵥ entries v := by
  funext i
  have hrow : entries (act m v) i = dot m[i.1] v := Vector.getElem_map _ i.isLt
  rw [hrow, dot_real]
  rfl

theorem entries_zipWith_mul (v w : Vector ℝ n) :
    entries (Vector.zipWith (· * ·) v w) = Matrix.diagonal (entries v) *ᵥ entries w := by
  funext i
  rw [Matrix.mulVec_diagonal]
  exact Vector.getElem_zipWith i.isLt

end SquareMatrix

end BeamOptics
