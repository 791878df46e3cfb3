import Mathlib.LinearAlgebra.SymplecticGroup
import BeamOptics.Proofs.Exact.Slicing

/-!
# Symplectic maps

The maps of elements keep the form that pairs each position with its slope and the path length with the momentum, and
so does the linear part of tracking through a range. Only an explicit matrix can break it. For one plane this says
that its map has determinant one; in a bend the path length has to answer for the dispersion.
-/

namespace BeamOptics

open Matrix

/-- Each position paired with its slope, and the path length with the momentum. -/
def Coordinate.form : Matrix Coordinate Coordinate ℝ := Matrix.of fun
  | .x, .xp | .y, .yp | .ct, .dp => 1
  | .xp, .x | .yp, .y | .dp, .ct => -1
  | _, _ => 0

/-- The three planes: a slope or a momentum on the left, what it is paired with on the right. -/
def Coordinate.planes : Coordinate ≃ Fin 3 ⊕ Fin 3 where
  toFun
    | .x => .inr 0
    | .xp => .inl 0
    | .y => .inr 1
    | .yp => .inl 1
    | .ct => .inr 2
    | .dp => .inl 2
  invFun := Sum.elim ![.xp, .yp, .dp] ![.x, .y, .ct]
  left_inv c := by cases c <;> rfl
  right_inv := by decide

theorem Coordinate.reindex_form : reindex planes planes form = Matrix.J (Fin 3) ℝ := by
  ext row column
  rcases row with row | row <;> rcases column with column | column <;> fin_cases row <;> fin_cases column <;>
    simp [form, planes, Matrix.J]

namespace PhaseVector

/-- What the form makes of two vectors. -/
def pairing (v w : PhaseVector ℝ) : ℝ :=
  (v.x * w.xp - v.xp * w.x) + (v.y * w.yp - v.yp * w.y) + (v.ct * w.dp - v.dp * w.ct)

end PhaseVector

namespace TransferMap

def toMatrix (m : TransferMap ℝ) : Matrix Coordinate Coordinate ℝ := Matrix.of fun row column => (m.get row).get column

def IsSymplectic (m : TransferMap ℝ) : Prop := m.toMatrixᵀ * Coordinate.form * m.toMatrix = Coordinate.form

theorem toMatrix_identity : (identity : TransferMap ℝ).toMatrix = 1 := by
  ext row column
  simp [toMatrix, identity, Matrix.one_apply]

theorem toMatrix_comp (m n : TransferMap ℝ) : (m.comp n).toMatrix = m.toMatrix * n.toMatrix := by
  ext row c
  simp only [toMatrix, comp, Matrix.mul_apply, Matrix.of_apply, PhaseVector.get_map, PhaseVector.get_ofFn, column,
    PhaseVector.dot_real]

theorem isSymplectic_iff {m : TransferMap ℝ} :
    m.IsSymplectic ↔ ∀ c d, (m.column c).pairing (m.column d) = Coordinate.form c d := by
  have hentry (c d : Coordinate) :
      (m.toMatrixᵀ * Coordinate.form * m.toMatrix) c d = (m.column c).pairing (m.column d) := by
    simp only [Matrix.mul_apply, PhaseVector.sum_coordinates, Coordinate.form, toMatrix, Matrix.of_apply,
      Matrix.transpose_apply, PhaseVector.pairing, column, PhaseVector.map, PhaseVector.get]
    ring
  rw [IsSymplectic, ← Matrix.ext_iff]
  simp only [hentry]

namespace IsSymplectic

theorem identity : (identity : TransferMap ℝ).IsSymplectic := by
  rw [IsSymplectic, toMatrix_identity, Matrix.transpose_one, Matrix.one_mul, Matrix.mul_one]

theorem comp {m n : TransferMap ℝ} (hm : m.IsSymplectic) (hn : n.IsSymplectic) : (m.comp n).IsSymplectic := by
  have hregroup : (m.toMatrix * n.toMatrix)ᵀ * Coordinate.form * (m.toMatrix * n.toMatrix) =
      n.toMatrixᵀ * (m.toMatrixᵀ * Coordinate.form * m.toMatrix) * n.toMatrix := by
    simp only [Matrix.transpose_mul, Matrix.mul_assoc]
  rw [IsSymplectic, toMatrix_comp, hregroup, hm, hn]

theorem det_eq_one {m : TransferMap ℝ} (h : m.IsSymplectic) : m.toMatrix.det = 1 := by
  rw [← Matrix.det_reindex_self Coordinate.planes]
  apply SymplecticGroup.det_eq_one
  rw [SymplecticGroup.mem_iff', ← Coordinate.reindex_form]
  have hreindexed := congrArg (Matrix.reindex Coordinate.planes Coordinate.planes) h
  simpa only [Matrix.reindex_apply, Matrix.transpose_submatrix, Matrix.submatrix_mul_equiv] using hreindexed

end IsSymplectic

end TransferMap

/-! ### Elements -/

namespace Block

open TransferMap

def det (b : Block ℝ) : ℝ := b.xx * b.pp - b.xp * b.px

theorem det_motion (k ds : ℝ) : (motion k ds).det = 1 := by
  rcases motion_cases k with ⟨w, hw, -, h⟩ | ⟨w, hw, -, h⟩ | ⟨-, h⟩
  · have hcircle := Real.sin_sq_add_cos_sq (w * ds)
    rw [h, det]
    field_simp
    linarith
  · have hhyperbola := Real.cosh_sq (w * ds)
    rw [h, det]
    field_simp
    linarith
  · rw [h, det]
    ring

end Block

namespace Dispersion

open Block

/-- The dispersion that a block gives to a particle comes back in the path length. -/
structure Balances (d : Dispersion ℝ) (horizontal : Block ℝ) : Prop where
  ctX : d.ctX = horizontal.px * d.x - horizontal.xx * d.xp
  ctXp : d.ctXp = horizontal.pp * d.x - horizontal.xp * d.xp

theorem balances_bending (h kx ds : ℝ) : (bending h kx ds).Balances (motion kx ds) := by
  have hdet := det_motion kx ds
  rw [Block.det, pp_motion, px_motion] at hdet
  by_cases hkx : kx = 0
  · have hblock : motion 0 ds = ⟨1, ds, 0, 1⟩ := by simp [motion]
    subst hkx
    rw [hblock, bending, if_pos rfl, Scalar.two, Scalar.ofNat_real]
    constructor <;> push_cast <;> ring
  · rw [bending, if_neg hkx]
    constructor
    · rw [px_motion]
      field_simp
      ring
    · rw [pp_motion]
      field_simp
      linear_combination h * hdet

end Dispersion

namespace TransferMap

open Block Dispersion

theorem isSymplectic_ofBend {horizontal vertical : Block ℝ} {d : Dispersion ℝ} (hhorizontal : horizontal.det = 1)
    (hvertical : vertical.det = 1) (hbalances : d.Balances horizontal) :
    (ofBend horizontal vertical d).IsSymplectic := by
  rw [Block.det] at hhorizontal hvertical
  rw [isSymplectic_iff]
  intro c e
  cases c <;> cases e <;>
    simp [PhaseVector.pairing, column, ofBend, PhaseVector.map, PhaseVector.get, Coordinate.form, hbalances.ctX,
      hbalances.ctXp] <;> linarith

theorem isSymplectic_bendFlow (h kx ky ds : ℝ) : (bendFlow h kx ky ds).IsSymplectic :=
  isSymplectic_ofBend (det_motion kx ds) (det_motion ky ds) (balances_bending h kx ds)

end TransferMap

/-- Whether the map is given entry by entry, and not by what the element is. -/
def Optics.explicit {α : Type} : Optics α → Bool
  | .map .. => true
  | _ => false

theorem Element.isSymplectic_transferMap {e : Element ℝ} (h : e.optics.explicit = false) (ds : ℝ) :
    ∃ m, e.transferMap ds = .ok m ∧ m.IsSymplectic := by
  by_cases hkickless : e.optics.kickless = true
  · obtain ⟨curvature, kx, ky, share, hmaps⟩ := Element.exists_bendFlow hkickless
    exact ⟨_, hmaps ds, TransferMap.isSymplectic_bendFlow curvature kx ky (share * ds)⟩
  · unfold transferMap
    cases hoptics : e.optics with
    | corrector plane strength =>
      refine ⟨_, rfl, ?_⟩
      rw [TransferMap.drift_eq_bendFlow]
      exact TransferMap.isSymplectic_bendFlow 0 0 0 ds
    | map matrix kick => simp [hoptics, Optics.explicit] at h
    | _ => simp [hoptics, Optics.kickless] at hkickless

/-! ### Lines -/

namespace AffineTurn

theorem isSymplectic_andThen {t u : AffineTurn} (ht : t.matrix.IsSymplectic) (hu : u.matrix.IsSymplectic) :
    (t.andThen u).matrix.IsSymplectic := hu.comp ht

theorem isSymplectic_times {t : AffineTurn} (h : t.matrix.IsSymplectic) (n : Nat) :
    (t.times n).matrix.IsSymplectic := by
  induction n with
  | zero => exact .identity
  | succ n ih => exact isSymplectic_andThen h ih

end AffineTurn

namespace Pass

/-- Slices of an element without an explicit matrix keep the form, in whatever count the processes ask for. -/
theorem exists_symplectic_through {processes : List (BeamProcess ℝ)} {e : Element ℝ}
    (hexplicit : e.optics.explicit = false) (hmild : ∀ p ∈ processes, p.IsMild e) (signals : Signals ℝ) :
    ∃ t : AffineTurn, t.matrix.IsSymplectic ∧ Carries (through processes signals e) t := by
  obtain ⟨n, hn, hcount⟩ := exists_stepCount hmild
  obtain ⟨m, hm, hsymplectic⟩ := Element.isSymplectic_transferMap hexplicit (e.length / n)
  have hcarries := carries_inSlices hmild signals hn hm
  rw [← through_eq_inSlices hcount] at hcarries
  refine ⟨_, AffineTurn.isSymplectic_times ?_ n, hcarries⟩
  exact AffineTurn.isSymplectic_andThen hsymplectic TransferMap.IsSymplectic.identity

end Pass

theorem Range.exists_symplectic_transport {processes : List (BeamProcess ℝ)} {r : Range ℝ}
    (hexplicit : ∀ e ∈ r.elements, e.optics.explicit = false)
    (hmild : ∀ e ∈ r.elements, ∀ p ∈ processes, p.IsMild e) (signals : Signals ℝ) :
    ∃ t : AffineTurn, t.matrix.IsSymplectic ∧ Carries (r.transport processes signals) t := by
  have hthrough : ∀ e ∈ r.elements, ∃ t : AffineTurn, t.matrix.IsSymplectic ∧
      Carries (Pass.through processes signals e) t :=
    fun e he => Pass.exists_symplectic_through (hexplicit e he) (hmild e he) signals
  obtain ⟨t, hsymplectic, ht⟩ := Pass.exists_turn_along (P := fun t => t.matrix.IsSymplectic)
    TransferMap.IsSymplectic.identity (fun _ _ => AffineTurn.isSymplectic_andThen) hthrough
  refine ⟨t, hsymplectic, ?_⟩
  intro b
  rw [Range.transport, ht]
  rfl

/-- The map of any slice of any element but one with an explicit matrix keeps the form. So tracking through a range of
such elements is one affine turn of all particles whose linear part keeps the form and has determinant one. Processes
are welcome as long as no radiation acts; there may be none. -/
theorem tracking_maps_are_symplectic :
    (∀ (e : Element ℝ) (ds : ℝ), e.optics.explicit = false → ∃ m, e.transferMap ds = .ok m ∧ m.IsSymplectic) ∧
    ∀ (s : Station ℝ) (r : Range ℝ), s.tracker.range = some r → (∀ e ∈ r.elements, e.optics.explicit = false) →
      (∀ e ∈ r.elements, ∀ p ∈ s.plant.processesOf s.tracker.processes, p.IsMild e) →
      ∃ t : AffineTurn, t.matrix.IsSymplectic ∧ t.matrix.toMatrix.det = 1 ∧
        ∀ b, ((Station.trackBunch b).run s).1 = .ok (.ok (), b.mapParticles t.act) := by
  refine ⟨fun e ds hexplicit => Element.isSymplectic_transferMap hexplicit ds, ?_⟩
  intro s r hrange hexplicit hmild
  obtain ⟨t, hsymplectic, ht⟩ := Range.exists_symplectic_transport hexplicit hmild s.plant.signals
  refine ⟨t, hsymplectic, hsymplectic.det_eq_one, fun b => ?_⟩
  obtain ⟨s', hrun⟩ := Station.run_trackBunch_of_transport hrange (ht b)
  rw [hrun]

namespace Cell

/-- A tracker of a bend between quadrupole and corrector, with nothing attached. -/
noncomputable def arc : Station ℝ where
  tracker := { range := some ⟨0, [quadrupole, dipole, ⟨3, "C", "Corrector", 1, .corrector .y 1⟩]⟩ }
  plant := { }

theorem tracking_maps_are_symplectic_in_the_arc :
    (∃ m, dipole.transferMap (1 / 2) = .ok m ∧ m.IsSymplectic) ∧
      ∃ t : AffineTurn, t.matrix.IsSymplectic ∧ t.matrix.toMatrix.det = 1 ∧
        ((Station.trackBunch bunch).run arc).1 = .ok (.ok (), bunch.mapParticles t.act) := by
  obtain ⟨hmaps, htracking⟩ := tracking_maps_are_symplectic
  refine ⟨hmaps dipole (1 / 2) rfl, ?_⟩
  obtain ⟨t, hsymplectic, hdet, hturn⟩ := htracking arc _ rfl
    (by simp [quadrupole, dipole, Optics.explicit]) (fun _ _ p hp => absurd hp List.not_mem_nil)
  exact ⟨t, hsymplectic, hdet, hturn bunch⟩

end Cell

end BeamOptics
