import Mathlib.Analysis.SpecialFunctions.Trigonometric.Basic
import BeamOptics.Scalar

/-!
# Real scalars

Exact arithmetic. Everything is finite, elementary functions never refuse, and sums from the left are sums.
-/

namespace BeamOptics

noncomputable instance : Scalar ℝ where
  ofNat n := n
  lt a b := decide (a < b)
  le a b := decide (a ≤ b)
  beq a b := decide (a = b)
  isFinite _ := true
  sqrt := Real.sqrt
  cos a := .ok (Real.cos a)
  sin a := .ok (Real.sin a)
  cosh a := .ok (Real.cosh a)
  sinh a := .ok (Real.sinh a)
  cube a := .ok (a ^ 3)
  ceil a := .ok ⌈a⌉
  radiation := 8.846e-5 / (2 * Real.pi)

namespace Scalar

@[simp] theorem ofNat_real (n : Nat) : (ofNat n : ℝ) = n := rfl

@[simp] theorem lt_real (a b : ℝ) : lt a b = decide (a < b) := rfl

@[simp] theorem le_real (a b : ℝ) : le a b = decide (a ≤ b) := rfl

@[simp] theorem beq_real (a b : ℝ) : beq a b = decide (a = b) := rfl

@[simp] theorem isFinite_real (a : ℝ) : isFinite a = true := rfl

theorem overCount_real {n : ℕ} (h : n ≠ 0) (a : ℝ) : overCount a n = .ok (a / n) := overCount_of_ne_zero h a

theorem eq_of_overCount_real {n : ℕ} {a share : ℝ} (h : overCount a n = .ok share) : share = a / n := by
  unfold overCount at h
  split at h
  · cases h
  · exact (Except.ok.inj h).symm

theorem sum_real (values : List ℝ) : sum values = values.sum := by
  rw [sum, List.sum_eq_foldl]

end Scalar

end BeamOptics
