import BeamOptics.Proofs.Exact.Radiation
import BeamOptics.Proofs.Exact.Slicing

/-!
# Moving the reference momentum

Slopes and relative momenta are quotients by the reference momentum, so the reference can follow the mean of a bunch
without any particle noticing: each of them keeps its place and its absolute momenta. Behind the move the momenta are
spread about the reference, and a reference that is in their mean already stays there.
-/

namespace BeamOptics

/-- One motion, written down at two reference momenta: the same place, and the same absolute momenta. -/
structure PhaseVector.SameMotion (momentum momentum' : ℝ) (v w : PhaseVector ℝ) : Prop where
  x : w.x = v.x
  y : w.y = v.y
  ct : w.ct = v.ct
  xp : momentum' * w.xp = momentum * v.xp
  yp : momentum' * w.yp = momentum * v.yp
  total : momentum' * (1 + w.dp) = momentum * (1 + v.dp)

namespace Radiation

variable {scale : ℝ}

theorem sameMotion_rescale (h : scale ≠ 0) (momentum : ℝ) (v : PhaseVector ℝ) :
    PhaseVector.SameMotion momentum (momentum * scale) v (rescale scale v) where
  x := rfl
  y := rfl
  ct := rfl
  xp := by
    change momentum * scale * (v.xp / scale) = _
    rw [mul_assoc, mul_div_cancel₀ _ h]
  yp := by
    change momentum * scale * (v.yp / scale) = _
    rw [mul_assoc, mul_div_cancel₀ _ h]
  total := by
    change momentum * scale * (1 + ((1 + v.dp) / scale - 1)) = _
    rw [add_sub_cancel, mul_assoc, mul_div_cancel₀ _ h]

theorem rescale_one (v : PhaseVector ℝ) : rescale 1 v = v := by
  have hdp : (1 + v.dp) / 1 - 1 = v.dp := by rw [div_one, add_sub_cancel_left]
  apply PhaseVector.ext
  case xp => exact div_one v.xp
  case yp => exact div_one v.yp
  case dp => exact hdp
  all_goals rfl

/-- The mean of the momenta is rescaled with them. -/
theorem one_add_mean_rescale (scale : ℝ) {particles : List (PhaseVector ℝ)} (h : particles ≠ []) :
    1 + Bunch.mean (particles.map (rescale scale)) .dp = (1 + Bunch.mean particles .dp) / scale := by
  have hrelative (v : PhaseVector ℝ) : 1 + (rescale scale v).dp = (1 + v.dp) * scale⁻¹ := add_sub_cancel 1 _
  have hsum : ((particles.map (rescale scale)).map fun v => 1 + v.dp).sum =
      (particles.map fun v => 1 + v.dp).sum * scale⁻¹ := by
    rw [List.map_map, ← List.sum_map_mul_right]
    exact congrArg List.sum (List.map_congr_left fun v _ => hrelative v)
  have hmap : particles.map (rescale scale) ≠ [] := by simpa using h
  rw [Bunch.one_add_mean hmap, Bunch.one_add_mean h, hsum, List.length_map, mul_div_right_comm, div_eq_mul_inv _ scale]

variable {b : Bunch ℝ}

/-- Behind the move the reference is the mean of the momenta. -/
theorem mean_rereferenced (hparticles : b.particles ≠ []) (hmean : Bunch.mean b.particles .dp ≠ -1) :
    Bunch.mean (rereferenced b).particles .dp = 0 := by
  have hscale : 1 + Bunch.mean b.particles .dp ≠ 0 := mt eq_neg_of_add_eq_zero_right hmean
  have hone : 1 + Bunch.mean (rereferenced b).particles .dp = 1 :=
    calc
      _ = (1 + Bunch.mean b.particles .dp) / (1 + Bunch.mean b.particles .dp) := one_add_mean_rescale _ hparticles
      _ = 1 := div_self hscale
  exact add_eq_left.mp hone

/-- A reference that is the mean already does not move. -/
theorem rereferenced_eq_self (h : Bunch.mean b.particles .dp = 0) : rereferenced b = b := by
  have hscale : 1 + Bunch.mean b.particles .dp = 1 := by rw [h, add_zero]
  rw [rereferenced, hscale, Bunch.mapParticles, funext rescale_one, List.map_id', mul_one]

theorem sameMotion_rereferenced (hmean : Bunch.mean b.particles .dp ≠ -1) :
    List.Forall₂ (PhaseVector.SameMotion b.momentum (rereferenced b).momentum) b.particles
      (rereferenced b).particles := by
  have hscale : 1 + Bunch.mean b.particles .dp ≠ 0 := mt eq_neg_of_add_eq_zero_right hmean
  exact List.forall₂_map_right_iff.mpr (List.forall₂_same.mpr fun v _ => sameMotion_rescale hscale b.momentum v)

end Radiation

namespace BeamProcess

variable {r r' : Radiation ℝ} {e : Element ℝ} {ds : ℝ} {b : Bunch ℝ}

theorem act_of_stays (hstays : r.rereference = false) (h : Radiation.Radiates e ds b) :
    (radiation r).act e ds b = .ok (Radiation.depleted e ds b) := by
  rw [act, Radiation.act_of_radiates h, hstays]
  rfl

theorem act_of_follows (hfollows : r.rereference = true) (h : Radiation.Radiates e ds b) :
    (radiation r).act e ds b = .ok (Radiation.rereferenced (Radiation.depleted e ds b)) := by
  rw [act, Radiation.act_of_radiates h, hfollows]
  rfl

/-- Whether the reference momentum follows the loss or not, the particles behind a bend are the same: each has the
place and the absolute momenta that the loss leaves it. If the reference follows, it goes to the mean of the momenta,
unless that is zero, and it moves no further. -/
theorem rereferencing_keeps_absolute_momenta (hstays : r.rereference = false) (hfollows : r'.rereference = true)
    (hbend : e.isBend = true) (hds : 0 < ds) (hparticles : b.particles ≠ []) :
    ∃ kept, (radiation r).act e ds b = .ok kept ∧ kept.momentum = b.momentum ∧
      (Bunch.mean kept.particles .dp ≠ -1 → ∃ followed, (radiation r').act e ds b = .ok followed ∧
        List.Forall₂ (PhaseVector.SameMotion kept.momentum followed.momentum) kept.particles followed.particles ∧
        followed.momentum = kept.momentum * (1 + Bunch.mean kept.particles .dp) ∧ followed.charge = kept.charge ∧
        Bunch.mean followed.particles .dp = 0 ∧ (Bunch.mean kept.particles .dp = 0 → followed = kept)) ∧
      ∀ c : Bunch ℝ, Bunch.mean c.particles .dp = 0 → Radiation.rereferenced c = c := by
  have hradiates : Radiation.Radiates e ds b := ⟨hbend, hds.ne', hparticles⟩
  have hdepleted : (Radiation.depleted e ds b).particles ≠ [] := by
    simpa [Radiation.depleted, Bunch.mapParticles] using hparticles
  refine ⟨_, act_of_stays hstays hradiates, rfl, fun hmean => ?_, fun c => Radiation.rereferenced_eq_self⟩
  refine ⟨_, act_of_follows hfollows hradiates, Radiation.sameMotion_rereferenced hmean, rfl, rfl, ?_,
    Radiation.rereferenced_eq_self⟩
  exact Radiation.mean_rereferenced hdepleted hmean

end BeamProcess

namespace Cell

/-- A particle at the reference with a slope, and a particle with twice its momentum. -/
noncomputable def uneven : Bunch ℝ := ⟨1, 1, [⟨0, 1, 0, 0, 0, 0⟩, ⟨0, 0, 0, 0, 0, 1⟩]⟩

theorem depleted_uneven :
    Radiation.depleted dipole (1 / 5) uneven =
      ⟨1, 1, [⟨0, 1, 0, 0, 0, -(Scalar.radiation / 5)⟩, ⟨0, 0, 0, 0, 0, 1 - 4 / 5 * Scalar.radiation⟩]⟩ := by
  have hcurvature : dipole.curvature = 1 := div_one (1 : ℝ)
  have hloss (dp : ℝ) :
      Radiation.loss (1 ^ 3) dipole.curvature (1 / 5) dp = Scalar.radiation * (1 + dp) ^ 2 / 5 := by
    rw [hcurvature, Radiation.loss, Scalar.square]
    ring
  simp only [Radiation.depleted, uneven, Bunch.mapParticles, List.map_cons, List.map_nil, hloss]
  norm_num
  ring

theorem mean_depleted_uneven :
    Bunch.mean (Radiation.depleted dipole (1 / 5) uneven).particles .dp = (1 - Scalar.radiation) / 2 := by
  rw [depleted_uneven, Bunch.mean, Scalar.sum_real, Scalar.ofNat_real]
  simp only [List.map_cons, List.map_nil, List.sum_cons, List.sum_nil, PhaseVector.get, List.length_cons,
    List.length_nil]
  push_cast
  ring

/-- The bunch loses one unit of the radiation constant in all, and the reference follows by half of it. -/
theorem reference_follows_the_uneven_bunch :
    ∃ followed, (BeamProcess.radiation ⟨1, 0, true⟩).act dipole (1 / 5) uneven = .ok followed ∧
      followed.momentum = (3 - Scalar.radiation) / 2 ∧ Bunch.mean followed.particles .dp = 0 ∧
      ∃ v w, followed.particles = [v, w] ∧ followed.momentum * v.xp = 1 ∧
        followed.momentum * (1 + w.dp) = 2 - 4 / 5 * Scalar.radiation := by
  have hbend : dipole.isBend = true := rfl
  have hds : (0 : ℝ) < 1 / 5 := by norm_num
  have hparticles : uneven.particles ≠ [] := List.cons_ne_nil _ _
  have hstays : (⟨1, 0, false⟩ : Radiation ℝ).rereference = false := rfl
  have hfollows : (⟨1, 0, true⟩ : Radiation ℝ).rereference = true := rfl
  obtain ⟨kept, hkept, -, hfollowed, -⟩ :=
    BeamProcess.rereferencing_keeps_absolute_momenta hstays hfollows hbend hds hparticles
  obtain rfl := Except.ok.inj ((BeamProcess.act_of_stays hstays ⟨hbend, hds.ne', hparticles⟩).symm.trans hkept)
  have hpositive : (1 - Scalar.radiation) / 2 ≠ (-1 : ℝ) := by linarith [Scalar.radiation_lt_one]
  obtain ⟨followed, hact, hsame, hmomentum, -, hmean, -⟩ := hfollowed (mean_depleted_uneven.trans_ne hpositive)
  rw [mean_depleted_uneven, depleted_uneven] at hmomentum
  rw [depleted_uneven] at hsame
  obtain ⟨v, rest, hv, hrest, hboth⟩ := List.forall₂_cons_left_iff.mp hsame
  obtain ⟨w, tail, hw, htail, rfl⟩ := List.forall₂_cons_left_iff.mp hrest
  obtain rfl := List.forall₂_nil_left_iff.mp htail
  refine ⟨followed, hact, ?_, hmean, v, w, hboth, ?_, ?_⟩
  · rw [hmomentum]
    ring
  · rw [hv.xp, one_mul]
  · rw [hw.total]
    ring

end Cell

end BeamOptics
