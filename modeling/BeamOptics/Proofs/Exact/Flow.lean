import Mathlib.Analysis.SpecialFunctions.Trigonometric.DerivHyp
import BeamOptics.Lattice.Map
import BeamOptics.Proofs.Exact.Vector

/-!
# Maps as flows

The map of a slice depends on its length as the flow of the linear optics does: the map of a sum of lengths is the
composition of the maps. The addition theorems of the elementary functions are all that this takes.
-/

namespace BeamOptics

/-! ### One plane -/

namespace Block

def after (second first : Block ℝ) : Block ℝ where
  xx := second.xx * first.xx + second.xp * first.px
  xp := second.xx * first.xp + second.xp * first.pp
  px := second.px * first.xx + second.pp * first.px
  pp := second.px * first.xp + second.pp * first.pp

/-- The solution of `x'' = -k x` over a length. -/
noncomputable def motion (k ds : ℝ) : Block ℝ :=
  if 0 < k then
    ⟨Real.cos (√k * ds), Real.sin (√k * ds) / √k, -√k * Real.sin (√k * ds), Real.cos (√k * ds)⟩
  else if k < 0 then
    ⟨Real.cosh (√(-k) * ds), Real.sinh (√(-k) * ds) / √(-k), √(-k) * Real.sinh (√(-k) * ds), Real.cosh (√(-k) * ds)⟩
  else ⟨1, ds, 0, 1⟩

theorem focusing_real (k ds : ℝ) : focusing k ds = .ok (motion k ds) := by
  unfold focusing motion
  simp only [Scalar.lt_real, decide_eq_true_eq]
  split
  · rfl
  · split <;> rfl

/-- The three kinds of motion in a plane: about a focus, away from it, and straight on. -/
theorem motion_cases (k : ℝ) :
    (∃ w ≠ 0, k = w * w ∧ ∀ ds, motion k ds =
      ⟨Real.cos (w * ds), Real.sin (w * ds) / w, -w * Real.sin (w * ds), Real.cos (w * ds)⟩) ∨
    (∃ w ≠ 0, k = -(w * w) ∧ ∀ ds, motion k ds =
      ⟨Real.cosh (w * ds), Real.sinh (w * ds) / w, w * Real.sinh (w * ds), Real.cosh (w * ds)⟩) ∨
    k = 0 ∧ ∀ ds, motion k ds = ⟨1, ds, 0, 1⟩ := by
  unfold motion
  rcases lt_trichotomy k 0 with hk | rfl | hk
  · have hpos : 0 < -k := neg_pos.mpr hk
    refine .inr (.inl ⟨√(-k), (Real.sqrt_pos.mpr hpos).ne', ?_, fun ds => by rw [if_neg hk.not_gt, if_pos hk]⟩)
    rw [Real.mul_self_sqrt hpos.le, neg_neg]
  · exact .inr (.inr ⟨rfl, fun ds => by rw [if_neg (lt_irrefl 0), if_neg (lt_irrefl 0)]⟩)
  · exact .inl ⟨√k, (Real.sqrt_pos.mpr hk).ne', (Real.mul_self_sqrt hk.le).symm, fun ds => by rw [if_pos hk]⟩

theorem motion_zero_length (k : ℝ) : motion k 0 = ⟨1, 0, 0, 1⟩ := by
  rcases motion_cases k with ⟨w, -, -, h⟩ | ⟨w, -, -, h⟩ | ⟨-, h⟩ <;> simp [h]

theorem pp_motion (k ds : ℝ) : (motion k ds).pp = (motion k ds).xx := by
  rcases motion_cases k with ⟨w, -, -, h⟩ | ⟨w, -, -, h⟩ | ⟨-, h⟩ <;> rw [h]

theorem px_motion (k ds : ℝ) : (motion k ds).px = -k * (motion k ds).xp := by
  rcases motion_cases k with ⟨w, hw, rfl, h⟩ | ⟨w, hw, rfl, h⟩ | ⟨rfl, h⟩
  · rw [h]
    field_simp
  · rw [h]
    field_simp
  · rw [h, neg_zero, zero_mul]

theorem xx_motion_add (k a b : ℝ) :
    (motion k (a + b)).xx =
      (motion k b).xx * (motion k a).xx - k * (motion k b).xp * (motion k a).xp := by
  rcases motion_cases k with ⟨w, hw, rfl, h⟩ | ⟨w, hw, rfl, h⟩ | ⟨rfl, h⟩
  · simp only [h, mul_add, Real.cos_add]
    field_simp
  · simp only [h, mul_add, Real.cosh_add]
    field_simp
    ring
  · simp only [h]
    ring

theorem xp_motion_add (k a b : ℝ) :
    (motion k (a + b)).xp =
      (motion k b).xx * (motion k a).xp + (motion k b).xp * (motion k a).xx := by
  rcases motion_cases k with ⟨w, hw, rfl, h⟩ | ⟨w, hw, rfl, h⟩ | ⟨rfl, h⟩
  · simp only [h, mul_add, Real.sin_add]
    field_simp
  · simp only [h, mul_add, Real.sinh_add]
    field_simp
  · simp only [h]
    ring

theorem motion_add (k a b : ℝ) : motion k (a + b) = (motion k b).after (motion k a) := by
  have hxx := xx_motion_add k a b
  have hxp := xp_motion_add k a b
  apply Block.ext <;> simp only [after, px_motion, pp_motion, hxx, hxp] <;> ring

end Block

/-! ### The dispersion of a bend -/

namespace Dispersion

open Block

/-- Two bends, one after the other: their dispersions, with the horizontal map of each of them. -/
def after (second : Dispersion ℝ) (secondBlock : Block ℝ) (first : Dispersion ℝ) (firstBlock : Block ℝ) :
    Dispersion ℝ where
  x := secondBlock.xx * first.x + secondBlock.xp * first.xp + second.x
  xp := secondBlock.px * first.x + secondBlock.pp * first.xp + second.xp
  ctX := second.ctX * firstBlock.xx + second.ctXp * firstBlock.px + first.ctX
  ctXp := second.ctX * firstBlock.xp + second.ctXp * firstBlock.pp + first.ctXp
  ctDp := second.ctX * first.x + second.ctXp * first.xp + second.ctDp + first.ctDp

/-- The dispersion that curvature `h` gives to motion with focusing `kx`. -/
noncomputable def bending (h kx ds : ℝ) : Dispersion ℝ :=
  if kx = 0 then ⟨h * ds * ds / Scalar.two, h * ds, -h * ds, -h * ds * ds / Scalar.two, -h * h * ds ^ 3 / Scalar.six⟩
  else
    let block := motion kx ds
    ⟨h * (1 - block.xx) / kx, h * block.xp, -h * block.xp, -h * (1 - block.xx) / kx, -h * h * (ds - block.xp) / kx⟩

theorem dispersion_real (h kx ds : ℝ) : dispersion h kx ds (motion kx ds) = .ok (bending h kx ds) := by
  unfold dispersion bending
  by_cases hkx : kx = 0
  · have hxp : (motion 0 ds).xp = ds := by simp [motion]
    subst hkx
    simp [hxp]
    rfl
  · simp [hkx]
    rfl

theorem bending_zero_length (h kx : ℝ) : bending h kx 0 = ⟨0, 0, 0, 0, 0⟩ := by
  unfold bending
  split <;> simp [motion_zero_length]

theorem bending_add (h kx a b : ℝ) :
    bending h kx (a + b) = (bending h kx b).after (motion kx b) (bending h kx a) (motion kx a) := by
  by_cases hkx : kx = 0
  · subst hkx
    have hblock (ds : ℝ) : motion 0 ds = ⟨1, ds, 0, 1⟩ := by simp [motion]
    simp only [bending, after, hblock, if_true, Scalar.two, Scalar.six, Scalar.ofNat_real]
    apply Dispersion.ext
    all_goals
      push_cast
      ring
  · have hxx := xx_motion_add kx a b
    have hxp := xp_motion_add kx a b
    simp only [bending, if_neg hkx, after]
    apply Dispersion.ext
    all_goals
      simp only [px_motion, pp_motion, hxx, hxp]
      field_simp
      ring

end Dispersion

/-! ### Maps of elements -/

namespace TransferMap

open Block Dispersion

theorem ofBend_comp (horizontal vertical : Block ℝ) (d : Dispersion ℝ) (horizontal' vertical' : Block ℝ)
    (d' : Dispersion ℝ) :
    (ofBend horizontal' vertical' d').comp (ofBend horizontal vertical d) =
      ofBend (horizontal'.after horizontal) (vertical'.after vertical) (d'.after horizontal' d horizontal) := by
  ext <;> simp [comp, column, ofBend, Block.after, Dispersion.after, PhaseVector.map, PhaseVector.ofFn,
    PhaseVector.dot, PhaseVector.get]
  ring

/-- Motion in a bend of curvature `h` with focusing `kx` and `ky`. Without curvature it is the motion in a quadrupole
or a drift. -/
noncomputable def bendFlow (h kx ky ds : ℝ) : TransferMap ℝ :=
  ofBend (motion kx ds) (motion ky ds) (bending h kx ds)

theorem bendFlow_add (h kx ky a b : ℝ) :
    bendFlow h kx ky (a + b) = (bendFlow h kx ky b).comp (bendFlow h kx ky a) := by
  rw [bendFlow, bendFlow, bendFlow, ofBend_comp, motion_add, motion_add, bending_add]

theorem bendFlow_zero_length (h kx ky : ℝ) : bendFlow h kx ky 0 = identity := by
  rw [bendFlow, motion_zero_length, motion_zero_length, bending_zero_length]
  rfl

theorem bendFlow_act_add_ofCt (h kx ky ds : ℝ) (v : PhaseVector ℝ) (a : ℝ) :
    (bendFlow h kx ky ds).act (v + .ofCt a) = (bendFlow h kx ky ds).act v + .ofCt a := by
  have hct : (bendFlow h kx ky ds).act (.ofCt a) = .ofCt a := by
    simp [bendFlow, ofBend, act, PhaseVector.map, PhaseVector.dot, PhaseVector.ofCt]
  rw [act_add_real, hct]

theorem ofBlocks_eq_bendFlow (kx ky ds : ℝ) :
    ofBlocks (motion kx ds) (motion ky ds) = bendFlow 0 kx ky ds := by
  have hbending : bending 0 kx ds = ⟨0, 0, 0, 0, 0⟩ := by
    unfold bending
    split <;> simp
  rw [bendFlow, hbending]
  rfl

theorem drift_eq_bendFlow (ds : ℝ) : drift ds = bendFlow 0 0 0 ds := by
  have hblock : motion 0 ds = ⟨1, ds, 0, 1⟩ := by simp [motion]
  rw [← ofBlocks_eq_bendFlow, hblock]
  rfl

end TransferMap

/-- Optics that are a map and nothing else, and one that depends on the length: no kick, no explicit matrix. -/
def Optics.kickless {α : Type} : Optics α → Bool
  | .corrector .. => false
  | .map .. => false
  | _ => true

namespace Element

open TransferMap

theorem kick_of_kickless {α : Type} [Scalar α] {e : Element α} (h : e.optics.kickless = true) (strength ds : α) :
    e.kick strength ds = 0 := by
  unfold kick
  cases hoptics : e.optics with
  | corrector plane built => simp [hoptics, Optics.kickless] at h
  | map matrix kick => simp [hoptics, Optics.kickless] at h
  | _ => rfl

/-- Whatever the element, its maps are those of a bend over a share of the length: all of it, or nothing. -/
theorem exists_bendFlow {e : Element ℝ} (h : e.optics.kickless = true) :
    ∃ curvature kx ky share, ∀ ds, e.transferMap ds = .ok (bendFlow curvature kx ky (share * ds)) := by
  unfold transferMap
  cases hoptics : e.optics with
  | plain => exact ⟨0, 0, 0, 0, fun ds => by rw [zero_mul, bendFlow_zero_length]⟩
  | marker => exact ⟨0, 0, 0, 0, fun ds => by rw [zero_mul, bendFlow_zero_length]⟩
  | drift => exact ⟨0, 0, 0, 1, fun ds => by rw [one_mul, drift_eq_bendFlow]⟩
  | monitor x y => exact ⟨0, 0, 0, 1, fun ds => by rw [one_mul, drift_eq_bendFlow]⟩
  | quadrupole k1 =>
    refine ⟨0, k1, -k1, 1, fun ds => ?_⟩
    change TransferMap.quadrupole k1 ds = _
    rw [one_mul, ← ofBlocks_eq_bendFlow, TransferMap.quadrupole, Block.focusing_real, Block.focusing_real]
    rfl
  | bend angle k1 =>
    refine ⟨e.curvature, e.curvature * e.curvature + k1, -k1, 1, fun ds => ?_⟩
    change TransferMap.bend e.curvature k1 ds = _
    rw [one_mul, TransferMap.bend, Block.focusing_real, Block.focusing_real]
    change dispersion _ _ _ _ >>= _ = _
    rw [Dispersion.dispersion_real]
    rfl
  | corrector plane strength => simp [hoptics, Optics.kickless] at h
  | map matrix kick => simp [hoptics, Optics.kickless] at h

theorem exists_transferMap (e : Element ℝ) (ds : ℝ) : ∃ m, e.transferMap ds = .ok m := by
  by_cases hkickless : e.optics.kickless = true
  · obtain ⟨curvature, kx, ky, share, hmaps⟩ := exists_bendFlow hkickless
    exact ⟨_, hmaps ds⟩
  · unfold transferMap
    cases hoptics : e.optics with
    | corrector plane strength => exact ⟨_, rfl⟩
    | map matrix kick => exact ⟨_, rfl⟩
    | _ => simp [hoptics, Optics.kickless] at hkickless

end Element

end BeamOptics
