import BeamOptics.Proofs.Exact.Corrector
import BeamOptics.Proofs.Exact.Symplectic
import BeamOptics.Proofs.Tracking.Maintains
import BeamOptics.Proofs.Tracking.Particlewise

/-!
# Radiation and the reference momentum

A process that lets the reference momentum follow the loss multiplies it by the mean momentum of the particles behind
the slice, in units of the reference. So it stays positive exactly as long as the particles lose less than they have.
The loss grows with the cube of the momentum: a bound on momenta keeps it small, and as momenta only fall the bound
holds on.
-/

namespace BeamOptics

namespace Bunch

/-- The momenta of the particles, all together and in units of the reference momentum. -/
noncomputable def totalMomentum (b : Bunch ℝ) : ℝ := (b.particles.map fun v => 1 + v.dp).sum

theorem sum_map_one_add (particles : List (PhaseVector ℝ)) :
    (particles.map fun v => 1 + v.dp).sum = particles.length + (particles.map PhaseVector.dp).sum := by
  induction particles with
  | nil => simp
  | cons v rest ih =>
    simp only [List.map_cons, List.sum_cons, List.length_cons, ih]
    push_cast
    ring

theorem one_add_mean {particles : List (PhaseVector ℝ)} (h : particles ≠ []) :
    1 + mean particles .dp = (particles.map fun v => 1 + v.dp).sum / particles.length := by
  have hlength : (particles.length : ℝ) ≠ 0 := Nat.cast_ne_zero.mpr (mt List.length_eq_zero_iff.mp h)
  have hmean : mean particles .dp = (particles.map PhaseVector.dp).sum / particles.length := by
    rw [mean, Scalar.sum_real, Scalar.ofNat_real]
    rfl
  rw [hmean, sum_map_one_add]
  field_simp

end Bunch

namespace Radiation

/-- What the particles of a bunch lose in a slice, all together and in units of the reference momentum. -/
noncomputable def totalLoss (e : Element ℝ) (ds : ℝ) (b : Bunch ℝ) : ℝ :=
  (b.particles.map fun v => loss (b.momentum ^ 3) e.curvature ds v.dp).sum

/-- Particles after the loss in a slice, still in units of the old reference momentum. -/
noncomputable def depleted (e : Element ℝ) (ds : ℝ) (b : Bunch ℝ) : Bunch ℝ :=
  b.mapParticles fun v => { v with dp := v.dp - loss (b.momentum ^ 3) e.curvature ds v.dp }

theorem totalMomentum_depleted (e : Element ℝ) (ds : ℝ) (b : Bunch ℝ) :
    (depleted e ds b).totalMomentum = b.totalMomentum - totalLoss e ds b := by
  unfold Bunch.totalMomentum totalLoss depleted Bunch.mapParticles
  rw [List.map_map]
  induction b.particles with
  | nil => simp
  | cons v rest ih =>
    simp only [List.map_cons, List.sum_cons, ih, Function.comp_apply]
    ring

/-- Whether particles lose anything in a slice. -/
def Radiates (e : Element ℝ) (ds : ℝ) (b : Bunch ℝ) : Prop := e.isBend = true ∧ ds ≠ 0 ∧ b.particles ≠ []

theorem act_of_not_radiates {e : Element ℝ} {ds : ℝ} {b : Bunch ℝ} (h : ¬Radiates e ds b) (r : Radiation ℝ) :
    r.act e ds b = .ok b := by
  rw [act, if_pos]
  simp only [Radiates, not_and_or, not_not] at h
  rcases h with hbend | hds | hparticles
  · simp [hbend]
  · simp [hds]
  · simp [hparticles]

theorem act_of_radiates {e : Element ℝ} {ds : ℝ} {b : Bunch ℝ} (h : Radiates e ds b) (r : Radiation ℝ) :
    r.act e ds b = .ok (if r.rereference then rereferenced (depleted e ds b) else depleted e ds b) := by
  obtain ⟨hbend, hds, hparticles⟩ := h
  rw [act, if_neg]
  · rfl
  · simp [hbend, hds, hparticles]

theorem momentum_rereferenced {b : Bunch ℝ} (h : b.particles ≠ []) :
    (rereferenced b).momentum = b.momentum * (b.totalMomentum / b.particles.length) := by
  change b.momentum * (1 + Bunch.mean b.particles .dp) = _
  rw [Bunch.one_add_mean h, Bunch.totalMomentum]

/-- After a slice the reference momentum is positive unless it follows a loss of all that the particles have. -/
theorem momentum_pos_iff (r : Radiation ℝ) (e : Element ℝ) (ds : ℝ) {b b' : Bunch ℝ} (h : r.act e ds b = .ok b')
    (hpositive : 0 < b.momentum) :
    0 < b'.momentum ↔ (r.rereference = true → Radiates e ds b → totalLoss e ds b < b.totalMomentum) := by
  by_cases hradiates : Radiates e ds b
  · rw [act_of_radiates hradiates] at h
    obtain rfl := Except.ok.inj h
    cases r.rereference with
    | false => exact iff_of_true hpositive nofun
    | true =>
      have hparticles : (depleted e ds b).particles ≠ [] := by
        simpa [depleted, Bunch.mapParticles] using hradiates.2.2
      have hlength : (0 : ℝ) < (depleted e ds b).particles.length :=
        Nat.cast_pos.mpr (List.length_pos_iff.mpr hparticles)
      rw [if_pos rfl, momentum_rereferenced hparticles, totalMomentum_depleted]
      change 0 < b.momentum * ((b.totalMomentum - totalLoss e ds b) / _) ↔ _
      rw [mul_pos_iff_of_pos_left hpositive, div_pos_iff_of_pos_right hlength, sub_pos]
      exact ⟨fun hlt _ _ => hlt, fun hlt => hlt rfl hradiates⟩
  · rw [act_of_not_radiates hradiates] at h
    obtain rfl := Except.ok.inj h
    exact iff_of_true hpositive fun _ hyes => absurd hyes hradiates

end Radiation

/-! ### A bound on momenta -/

namespace Scalar

theorem radiation_pos : (0 : ℝ) < radiation := by
  change (0 : ℝ) < 8.846e-5 / (2 * Real.pi)
  have hpi := Real.pi_pos
  positivity

theorem radiation_lt_one : (radiation : ℝ) < 1 := by
  change (8.846e-5 : ℝ) / (2 * Real.pi) < 1
  have hpi := Real.two_le_pi
  rw [div_lt_one (by positivity)]
  linarith

end Scalar

/-- Positive momenta up to a limit: the one of reference, and those of all particles. -/
structure Bunch.Bounded (limit : ℝ) (b : Bunch ℝ) : Prop where
  positive : 0 < b.momentum
  reference : b.momentum ≤ limit
  particles : ∀ v ∈ b.particles, 0 < 1 + v.dp ∧ b.momentum * (1 + v.dp) ≤ limit

namespace Radiation

variable {limit : ℝ} {e : Element ℝ} {ds : ℝ} {b : Bunch ℝ}

/-- A particle within the limit keeps some of its momentum in a slice that is short enough for the limit. -/
theorem loss_bounds {momentum dp : ℝ} (hmomentum : 0 < momentum) (hreference : momentum ≤ limit) (hdp : 0 < 1 + dp)
    (hparticle : momentum * (1 + dp) ≤ limit) (hds : 0 ≤ ds)
    (hloss : Scalar.radiation * limit ^ 3 * e.curvature * e.curvature * ds < 1) :
    0 ≤ loss (momentum ^ 3) e.curvature ds dp ∧ loss (momentum ^ 3) e.curvature ds dp < 1 + dp := by
  have hconstant := Scalar.radiation_pos
  have hsquare := mul_self_nonneg e.curvature
  have hstrength : 0 ≤ Scalar.radiation * (e.curvature * e.curvature) * ds := by positivity
  have hcube : momentum ^ 2 * (momentum * (1 + dp)) ≤ limit ^ 2 * limit :=
    mul_le_mul (pow_le_pow_left₀ hmomentum.le hreference 2) hparticle (by positivity) (by positivity)
  have hshare : loss (momentum ^ 3) e.curvature ds dp =
      (1 + dp) * (Scalar.radiation * (e.curvature * e.curvature) * ds * (momentum ^ 2 * (momentum * (1 + dp)))) := by
    unfold loss Scalar.square
    ring
  have hbound : Scalar.radiation * (e.curvature * e.curvature) * ds * (momentum ^ 2 * (momentum * (1 + dp))) < 1 :=
    calc
      _ ≤ Scalar.radiation * (e.curvature * e.curvature) * ds * (limit ^ 2 * limit) :=
        mul_le_mul_of_nonneg_left hcube hstrength
      _ = Scalar.radiation * limit ^ 3 * e.curvature * e.curvature * ds := by ring
      _ < 1 := hloss
  rw [hshare]
  exact ⟨by positivity, mul_lt_of_lt_one_right hdp hbound⟩

theorem bounded_depleted (h : b.Bounded limit) (hds : 0 ≤ ds)
    (hloss : Scalar.radiation * limit ^ 3 * e.curvature * e.curvature * ds < 1) :
    (depleted e ds b).Bounded limit where
  positive := h.positive
  reference := h.reference
  particles := by
    intro v hv
    obtain ⟨w, hw, rfl⟩ := List.mem_map.mp hv
    obtain ⟨hdp, hparticle⟩ := h.particles w hw
    obtain ⟨hnonneg, hlt⟩ := loss_bounds h.positive h.reference hdp hparticle hds hloss
    dsimp only
    refine ⟨by linarith, le_trans ?_ hparticle⟩
    exact mul_le_mul_of_nonneg_left (by linarith) h.positive.le

theorem bounded_rereferenced (h : b.Bounded limit) (hparticles : b.particles ≠ []) : (rereferenced b).Bounded limit := by
  have hlength : (0 : ℝ) < b.particles.length := Nat.cast_pos.mpr (List.length_pos_iff.mpr hparticles)
  have hscale : 0 < 1 + Bunch.mean b.particles .dp := by
    rw [Bunch.one_add_mean hparticles]
    refine div_pos (List.sum_pos _ ?_ ?_) hlength
    · intro a ha
      obtain ⟨v, hv, rfl⟩ := List.mem_map.mp ha
      exact (h.particles v hv).1
    · simpa using hparticles
  refine ⟨mul_pos h.positive hscale, ?_, ?_⟩
  · -- the new reference is the mean of momenta within the limit
    have hsum : (b.particles.map fun v => b.momentum * (1 + v.dp)).sum ≤ b.particles.length * limit := by
      have hall : ∀ a ∈ b.particles.map fun v => b.momentum * (1 + v.dp), a ≤ limit := by
        intro a ha
        obtain ⟨v, hv, rfl⟩ := List.mem_map.mp ha
        exact (h.particles v hv).2
      simpa using List.sum_le_card_nsmul _ limit hall
    rw [List.sum_map_mul_left] at hsum
    rw [momentum_rereferenced hparticles, ← mul_div_assoc, div_le_iff₀ hlength, mul_comm limit]
    exact hsum
  · intro v hv
    obtain ⟨w, hw, rfl⟩ := List.mem_map.mp hv
    obtain ⟨hdp, hparticle⟩ := h.particles w hw
    have hrelative : 1 + (rescale (1 + Bunch.mean b.particles .dp) w).dp = (1 + w.dp) / (1 + Bunch.mean b.particles .dp) :=
      add_sub_cancel 1 _
    rw [hrelative]
    refine ⟨div_pos hdp hscale, ?_⟩
    change b.momentum * (1 + Bunch.mean b.particles .dp) * _ ≤ limit
    rwa [mul_assoc, mul_div_cancel₀ _ hscale.ne']

theorem maintains_bounded (r : Radiation ℝ) (hds : 0 ≤ ds)
    (hloss : Scalar.radiation * limit ^ 3 * e.curvature * e.curvature * ds < 1) :
    Maintains (Bunch.Bounded limit) (r.act e ds) := by
  intro b b' h hb
  by_cases hradiates : Radiates e ds b
  · rw [act_of_radiates hradiates] at h
    obtain rfl := Except.ok.inj h
    have hdepleted := bounded_depleted hb hds hloss
    cases r.rereference with
    | false => exact hdepleted
    | true =>
      refine bounded_rereferenced hdepleted ?_
      simpa [depleted, Bunch.mapParticles] using hradiates.2.2
  · rw [act_of_not_radiates hradiates] at h
    obtain rfl := Except.ok.inj h
    exact hb

end Radiation

theorem BeamProcess.maintains_bounded (p : BeamProcess ℝ) {limit : ℝ} {e : Element ℝ} {ds : ℝ} (hds : 0 ≤ ds)
    (hloss : Scalar.radiation * limit ^ 3 * e.curvature * e.curvature * ds < 1) :
    Maintains (Bunch.Bounded limit) (p.act e ds) := by
  cases p with
  | radiation r => exact fun b b' h => r.maintains_bounded hds hloss b b' (mapError_eq_ok_iff.mp h)
  | ringDelta scale =>
    intro b b' h hb
    rw [act] at h
    split at h <;> obtain rfl := Except.ok.inj h
    · exact hb
    · refine ⟨hb.positive, hb.reference, fun v hv => ?_⟩
      obtain ⟨w, hw, rfl⟩ := List.mem_map.mp hv
      exact hb.particles w hw
  | finiteness detailed =>
    intro b b' h hb
    rw [act] at h
    split at h
    · obtain rfl := Except.ok.inj h
      exact hb
    · cases h

namespace Element

theorem curvature_of_isBend_false {e : Element ℝ} (h : e.isBend = false) : e.curvature = 0 := by
  unfold curvature
  split
  · rename_i hoptics
    rw [isBend, hoptics] at h
    cases h
  · rfl

/-- No map but an explicit one changes the momentum of a particle. -/
theorem dp_act_add_kick {e : Element ℝ} (h : e.optics.explicit = false) {ds : ℝ} {m : TransferMap ℝ}
    (hm : e.transferMap ds = .ok m) (strength : ℝ) (v : PhaseVector ℝ) : (m.act v + e.kick strength ds).dp = v.dp := by
  by_cases hkickless : e.optics.kickless = true
  · obtain ⟨curvature, kx, ky, share, hmaps⟩ := exists_bendFlow hkickless
    obtain rfl := Except.ok.inj ((hmaps ds).symm.trans hm)
    rw [kick_of_kickless hkickless, PhaseVector.add_zero_real]
    simp [TransferMap.bendFlow, TransferMap.ofBend, TransferMap.act, PhaseVector.map, PhaseVector.dot]
  · unfold transferMap at hm
    cases hoptics : e.optics with
    | corrector plane built =>
      rw [hoptics] at hm
      obtain rfl := Except.ok.inj hm
      have hdrift := TransferMap.get_act_drift (.inr (.inr rfl) : Coordinate.dp.IsSteady) ds v
      have hkick := get_kick_corrector hoptics strength ds .dp
      rw [if_neg (by cases plane <;> decide)] at hkick
      exact (congrArg₂ (· + ·) hdrift hkick).trans (add_zero _)
    | map matrix kick => simp [hoptics, Optics.explicit] at h
    | _ => simp [hoptics, Optics.kickless] at hkickless

end Element

namespace Pass

/-- An element that no particle up to a limit can lose all its momentum in, slice by slice. -/
structure Moderate (processes : List (BeamProcess ℝ)) (limit : ℝ) (e : Element ℝ) : Prop where
  implicit : e.optics.explicit = false
  length : 0 ≤ e.length
  loss : ∀ n, stepCount processes e = .ok n →
    Scalar.radiation * limit ^ 3 * e.curvature * e.curvature * (e.length / n) < 1

theorem maintains_bounded_through {processes : List (BeamProcess ℝ)} {limit : ℝ} {e : Element ℝ}
    (h : Moderate processes limit e) (signals : Signals ℝ) :
    Maintains (Bunch.Bounded limit) (through processes signals e) := by
  refine Maintains.through fun n ds m hcount hds hm => ?_
  obtain rfl := Scalar.eq_of_overCount_real hds
  have hlength : 0 ≤ e.length / n := div_nonneg h.length (Nat.cast_nonneg n)
  refine ⟨fun b hb => ⟨hb.positive, hb.reference, fun v hv => ?_⟩, fun p _ =>
    p.maintains_bounded hlength (h.loss n hcount)⟩
  obtain ⟨w, hw, rfl⟩ := List.mem_map.mp hv
  rw [Element.dp_act_add_kick h.implicit hm]
  exact hb.particles w hw

end Pass

/-! ### Without a moving reference -/

theorem BeamProcess.momentum_of_act {α : Type} [Scalar α] {p : BeamProcess α} (h : p.rereferences = false)
    {e : Element α} {ds : α} {b b' : Bunch α} (hact : p.act e ds b = .ok b') : b'.momentum = b.momentum := by
  cases p with
  | radiation r =>
    rw [act, Radiation.act] at hact
    split at hact
    · obtain rfl := Except.ok.inj hact
      rfl
    · cases hcube : Scalar.cube b.momentum with
      | error fault =>
        rw [hcube] at hact
        cases hact
      | ok cubed =>
        replace h : r.rereference = false := h
        rw [hcube, h] at hact
        obtain rfl := Except.ok.inj hact
        rfl
  | ringDelta scale =>
    rw [act] at hact
    split at hact <;> obtain rfl := Except.ok.inj hact <;> rfl
  | finiteness detailed =>
    rw [act] at hact
    split at hact
    · obtain rfl := Except.ok.inj hact
      rfl
    · cases hact

/-- As long as no process moves the reference momentum it stays what it is, whatever the elements. -/
theorem Pass.maintains_momentum_through {α : Type} [Scalar α] {processes : List (BeamProcess α)}
    (h : ∀ p ∈ processes, p.rereferences = false) (momentum : α) (signals : Signals α) (e : Element α) :
    Maintains (fun b => b.momentum = momentum) (through processes signals e) := by
  refine Maintains.through fun n ds m _ _ _ => ⟨fun b hb => hb, fun p hp b b' hact hb => ?_⟩
  exact (BeamProcess.momentum_of_act (h p hp) hact).trans hb

end BeamOptics
