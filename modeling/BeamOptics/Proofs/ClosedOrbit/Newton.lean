import BeamOptics.ClosedOrbit.Newton
import BeamOptics.Proofs.Exact.LeastSquares
import BeamOptics.Proofs.Exact.Turn

/-!
# Newton steps on an affine turn

Finite differences of an affine map are exact, so every step meets the same matrix. One step takes all of the residual
away that the kept singular vectors can see, and the steps after it find nothing to correct.
-/

namespace BeamOptics

namespace Newton

open Matrix SquareMatrix

/-- A matrix less the identity, on the solved coordinates. -/
noncomputable def lessIdentity (solved : List Coordinate) (m : TransferMap ℝ) : SquareMatrix ℝ solved.length :=
  SquareMatrix.ofFn fun row column => (m.get (solved.get row)).get (solved.get column) - if row = column then 1 else 0

/-- How far a turn misses an orbit, on the solved coordinates. -/
noncomputable def miss (solved : List Coordinate) (t : AffineTurn) (orbit : PhaseVector ℝ) : Vector ℝ solved.length :=
  project solved (t.act orbit - orbit)

theorem coordinates_nodup (transverseOnly : Bool) : (coordinates transverseOnly).Nodup := by
  cases transverseOnly <;> decide

variable {solved : List Coordinate}

/-! ### The Jacobian -/

theorem get_displaced (delta : ℝ) (orbit : PhaseVector ℝ) (i : Fin solved.length) (c : Coordinate) :
    (displaced solved delta orbit (solved.get i)).get c = orbit.get c + delta * if c = solved.get i then 1 else 0 := by
  rw [displaced, PhaseVector.get_ofFn]
  by_cases hc : c ∈ solved
  · rw [if_pos (by simpa using hc)]
  · have hne : c ≠ solved.get i := fun h => hc (h ▸ List.getElem_mem i.isLt)
    rw [if_neg (by simpa using hc), if_neg hne]
    ring

theorem get_act_real (t : AffineTurn) (v : PhaseVector ℝ) (c : Coordinate) :
    (t.act v).get c = ∑ d, (t.matrix.get c).get d * v.get d + t.shift.get c := by
  rw [AffineTurn.act, PhaseVector.get_add, TransferMap.get_act, PhaseVector.dot_real]

/-- The finite-difference Jacobian is exact, whatever the displacement and the orbit. -/
theorem jacobian_affine (t : AffineTurn) {delta : ℝ} (hdelta : delta ≠ 0) (orbit : PhaseVector ℝ) :
    jacobian solved delta (t.act orbit) ((solved.map (displaced solved delta orbit)).map t.act) =
      lessIdentity solved t.matrix := by
  unfold jacobian lessIdentity
  congr 1
  funext row column
  have himage : ((solved.map (displaced solved delta orbit)).map t.act).getD column (t.act orbit) =
      t.act (displaced solved delta orbit (solved.get column)) := by
    simp
  have hdifference : (t.act (displaced solved delta orbit (solved.get column))).get (solved.get row) -
      (t.act orbit).get (solved.get row) = delta * (t.matrix.get (solved.get row)).get (solved.get column) := by
    rw [get_act_real, get_act_real, add_sub_add_right_eq_sub, ← Finset.sum_sub_distrib]
    have hterm (d : Coordinate) :
        (t.matrix.get (solved.get row)).get d * (displaced solved delta orbit (solved.get column)).get d -
          (t.matrix.get (solved.get row)).get d * orbit.get d =
        if d = solved.get column then delta * (t.matrix.get (solved.get row)).get d else 0 := by
      rw [get_displaced]
      split <;> ring
    rw [Finset.sum_congr rfl fun d _ => hterm d, Finset.sum_ite_eq' Finset.univ (solved.get column),
      if_pos (Finset.mem_univ _)]
  rw [himage]
  change ((t.act _).get (solved.get row) - (t.act orbit).get (solved.get row)) / delta - _ = _
  rw [hdifference, mul_div_cancel_left₀ _ hdelta]

/-! ### The correction -/

theorem get_correct (orbit : PhaseVector ℝ) (correction : Vector ℝ solved.length) (c : Coordinate) :
    (correct solved orbit correction).get c =
      orbit.get c - ∑ i : Fin solved.length, if solved.get i = c then entries correction i else 0 := by
  have hfold (indexes : List (Fin solved.length)) (v : PhaseVector ℝ) :
      (indexes.foldl (fun v i => v.modify (solved.get i) fun a => a - entries correction i) v).get c =
        v.get c - (indexes.map fun i => if solved.get i = c then entries correction i else 0).sum := by
    induction indexes generalizing v with
    | nil => simp
    | cons i rest ih =>
      rw [List.foldl_cons, ih, PhaseVector.get_modify, List.map_cons, List.sum_cons]
      by_cases hc : c = solved.get i
      · rw [if_pos hc, if_pos hc.symm]
        exact sub_sub _ _ _
      · rw [if_neg hc, if_neg (Ne.symm hc), zero_add]
  rw [← List.sum_ofFn, List.ofFn_eq_map]
  exact hfold (List.finRange solved.length) orbit

/-- A correction moves solved coordinates only. -/
theorem get_correct_of_not_mem {α : Type} [Scalar α] (orbit : PhaseVector α) (correction : Vector α solved.length)
    {c : Coordinate} (hc : c ∉ solved) : (correct solved orbit correction).get c = orbit.get c := by
  have hfold (indexes : List (Fin solved.length)) (v : PhaseVector α) :
      (indexes.foldl (fun v i => v.modify solved[i] fun a => a - correction[i]) v).get c = v.get c := by
    induction indexes generalizing v with
    | nil => rfl
    | cons i rest ih =>
      have hne : c ≠ solved[i] := fun h => hc (h ▸ List.getElem_mem i.isLt)
      rw [List.foldl_cons, ih, PhaseVector.get_modify, if_neg hne]
  exact hfold (List.finRange solved.length) orbit

theorem get_correct_solved (hnodup : solved.Nodup) (orbit : PhaseVector ℝ) (correction : Vector ℝ solved.length)
    (i : Fin solved.length) :
    (correct solved orbit correction).get (solved.get i) = orbit.get (solved.get i) - entries correction i := by
  have hsame (j : Fin solved.length) : solved.get j = solved.get i ↔ j = i := hnodup.get_inj_iff
  rw [get_correct]
  simp only [hsame, Finset.sum_ite_eq', Finset.mem_univ, if_true]

theorem correct_project_sub (hnodup : solved.Nodup) {orbit z : PhaseVector ℝ}
    (h : ∀ c ∉ solved, z.get c = orbit.get c) : correct solved orbit (project solved (orbit - z)) = z := by
  apply PhaseVector.ext_get
  intro c
  by_cases hc : c ∈ solved
  · obtain ⟨k, hk, hkc⟩ := List.getElem_of_mem hc
    obtain ⟨i, rfl⟩ : ∃ i : Fin solved.length, solved.get i = c := ⟨⟨k, hk⟩, hkc⟩
    have hentry : entries (project solved (orbit - z)) i = orbit.get (solved.get i) - z.get (solved.get i) := by
      rw [project, entries_ofFn, PhaseVector.get_sub]
      rfl
    rw [get_correct_solved hnodup, hentry, sub_sub_cancel]
  · rw [get_correct_of_not_mem _ _ hc, h c hc]

theorem correct_of_entries_eq_zero (orbit : PhaseVector ℝ) {correction : Vector ℝ solved.length}
    (h : entries correction = 0) : correct solved orbit correction = orbit := by
  have hzero (i : Fin solved.length) : entries correction i = 0 := congrFun h i
  apply PhaseVector.ext_get
  intro c
  rw [get_correct]
  simp only [hzero, ite_self, Finset.sum_const_zero, sub_zero]

theorem entries_miss (t : AffineTurn) (orbit : PhaseVector ℝ) (i : Fin solved.length) :
    entries (miss solved t orbit) i = (t.act orbit).get (solved.get i) - orbit.get (solved.get i) := by
  rw [miss, project, entries_ofFn, PhaseVector.get_sub]
  rfl

theorem entries_miss_eq_zero_iff (t : AffineTurn) (orbit : PhaseVector ℝ) :
    entries (miss solved t orbit) = 0 ↔ ∀ c ∈ solved, (t.act orbit).get c = orbit.get c := by
  constructor
  · intro h c hc
    obtain ⟨k, hk, rfl⟩ := List.getElem_of_mem hc
    have hzero := congrFun h ⟨k, hk⟩
    rw [entries_miss] at hzero
    exact sub_eq_zero.mp hzero
  · intro h
    funext i
    rw [entries_miss]
    exact sub_eq_zero.mpr (h _ (List.getElem_mem i.isLt))

theorem get_act_correct (t : AffineTurn) (orbit : PhaseVector ℝ) (correction : Vector ℝ solved.length)
    (c : Coordinate) :
    (t.act (correct solved orbit correction)).get c =
      (t.act orbit).get c - ∑ i : Fin solved.length, (t.matrix.get c).get (solved.get i) * entries correction i := by
  have hterm (d : Coordinate) : (t.matrix.get c).get d * (correct solved orbit correction).get d =
      (t.matrix.get c).get d * orbit.get d -
        ∑ i : Fin solved.length, if solved.get i = d then (t.matrix.get c).get d * entries correction i else 0 := by
    rw [get_correct, mul_sub, Finset.mul_sum]
    simp only [mul_ite, mul_zero]
  have hsum : ∑ d, (∑ i : Fin solved.length,
        if solved.get i = d then (t.matrix.get c).get d * entries correction i else 0) =
      ∑ i : Fin solved.length, (t.matrix.get c).get (solved.get i) * entries correction i := by
    rw [Finset.sum_comm]
    apply Finset.sum_congr rfl
    intro i _
    rw [Finset.sum_ite_eq, if_pos (Finset.mem_univ _)]
  rw [get_act_real, get_act_real, Finset.sum_congr rfl fun d _ => hterm d, Finset.sum_sub_distrib, hsum]
  ring

theorem lessIdentity_mulVec (m : TransferMap ℝ) (v : Fin solved.length → ℝ) (row : Fin solved.length) :
    (toMatrix (lessIdentity solved m) *ᵥ v) row =
      ∑ i : Fin solved.length, (m.get (solved.get row)).get (solved.get i) * v i - v row := by
  have hidentity : ∑ i : Fin solved.length, (if row = i then 1 else 0) * v i = v row := by
    simp
  rw [lessIdentity, toMatrix_ofFn, mulVec, dotProduct, ← hidentity, ← Finset.sum_sub_distrib]
  apply Finset.sum_congr rfl
  intro i _
  exact sub_mul _ _ _

/-- A correction takes its image off the miss. -/
theorem entries_miss_correct (hnodup : solved.Nodup) (t : AffineTurn) (orbit : PhaseVector ℝ)
    (correction : Vector ℝ solved.length) :
    entries (miss solved t (correct solved orbit correction)) =
      entries (miss solved t orbit) - toMatrix (lessIdentity solved t.matrix) *ᵥ entries correction := by
  funext row
  rw [Pi.sub_apply, entries_miss, entries_miss, get_act_correct, get_correct_solved hnodup, lessIdentity_mulVec]
  ring

/-! ### Steps -/

theorem step_affine {decompose : Decomposer ℝ} {d : Svd ℝ solved.length} {t : AffineTurn}
    (hdecompose : decompose solved.length (lessIdentity solved t.matrix) = some d) {delta : ℝ} (hdelta : delta ≠ 0)
    (threshold : ℝ) (orbit : PhaseVector ℝ) :
    step decompose solved delta threshold orbit ((probe solved delta orbit).map t.act) =
      .ok {
        orbit := correct solved orbit (d.solve (miss solved t orbit) threshold)
        residual := SquareMatrix.dot (miss solved t orbit) (miss solved t orbit)
        correction := SquareMatrix.dot (d.solve (miss solved t orbit) threshold)
          (d.solve (miss solved t orbit) threshold) } := by
  rw [probe, List.map_cons, step, jacobian_affine t hdelta orbit, hdecompose]
  rfl

end Newton

end BeamOptics
