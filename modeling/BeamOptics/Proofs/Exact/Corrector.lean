import BeamOptics.Proofs.Exact.Settings
import BeamOptics.Proofs.Exact.Slicing
import BeamOptics.Proofs.Tracking.Monitoring

/-!
# Correctors

A corrector is a drift that turns the angle of every particle by the same amount in each of its slices. A long one
gives a share of its strength in a slice, so that its strength comes out in any count of slices. A thin one gives all of
it in every slice.
-/

namespace BeamOptics

/-- The coordinate that a kick in the plane changes. -/
def Plane.angle : Plane → Coordinate
  | x => .xp
  | y => .yp

namespace Coordinate

/-- The coordinates that a drift leaves alone, and a path length too. -/
def IsSteady (c : Coordinate) : Prop := c = xp ∨ c = yp ∨ c = dp

theorem isSteady_angle (plane : Plane) : plane.angle.IsSteady := by
  cases plane with
  | x => exact .inl rfl
  | y => exact .inr (.inl rfl)

end Coordinate

theorem TransferMap.get_act_drift {c : Coordinate} (h : c.IsSteady) (ds : ℝ) (v : PhaseVector ℝ) :
    ((drift ds).act v).get c = v.get c := by
  rw [get_act, PhaseVector.dot_real, PhaseVector.sum_coordinates]
  rcases h with rfl | rfl | rfl <;> simp [drift, PhaseVector.get]

namespace AffineTurn

theorem get_act_lengthening {c : Coordinate} (h : c.IsSteady) (a : ℝ) (v : PhaseVector ℝ) :
    ((lengthening a).act v).get c = v.get c := by
  rw [act_lengthening, PhaseVector.get_add]
  rcases h with rfl | rfl | rfl <;> exact add_zero _

/-- A drift with a kick behind it, and then a longer path. -/
theorem get_act_kick {c : Coordinate} (h : c.IsSteady) (ds : ℝ) (kick : PhaseVector ℝ) (a : ℝ) (v : PhaseVector ℝ) :
    ((andThen ⟨.drift ds, kick⟩ (lengthening a)).act v).get c = v.get c + kick.get c := by
  rw [act_andThen, get_act_lengthening h, act, PhaseVector.get_add, TransferMap.get_act_drift h]

/-- What one turn adds to a coordinate, whatever the particle, adds up over the turns. -/
theorem get_act_times {t : AffineTurn} {c : Coordinate} {a : ℝ} (h : ∀ v, (t.act v).get c = v.get c + a) (n : Nat)
    (v : PhaseVector ℝ) : ((t.times n).act v).get c = v.get c + n * a := by
  induction n generalizing v with
  | zero => rw [times, act_identity, Nat.cast_zero, zero_mul, add_zero]
  | succ n ih =>
    rw [times, act_andThen, ih, h, Nat.cast_succ]
    ring

end AffineTurn

namespace Element

theorem get_kick_corrector {e : Element ℝ} {plane : Plane} {built : ℝ} (h : e.optics = .corrector plane built)
    (strength ds : ℝ) (c : Coordinate) :
    (e.kick strength ds).get c = if c = plane.angle then strength * e.kickShare ds else 0 := by
  unfold kick
  rw [h]
  cases plane <;> cases c <;> rfl

/-- How often a corrector gives its strength to a particle that passes it in `n` slices. -/
noncomputable def doses (e : Element ℝ) (n : Nat) : ℝ := if e.length = 0 then n else 1

theorem mul_kickShare (e : Element ℝ) (strength : ℝ) {n : Nat} (hn : n ≠ 0) :
    n * (strength * e.kickShare (e.length / n)) = strength * e.doses n := by
  have hcount : (n : ℝ) ≠ 0 := Nat.cast_ne_zero.mpr hn
  rw [kickShare, Scalar.beq_real, doses]
  by_cases hlength : e.length = 0
  · rw [decide_eq_true hlength, if_pos rfl, if_pos hlength]
    ring
  · rw [decide_eq_false hlength, if_neg Bool.false_ne_true, if_neg hlength]
    field_simp

theorem doses_eq_one_iff (e : Element ℝ) (n : Nat) : e.doses n = 1 ↔ e.length ≠ 0 ∨ n = 1 := by
  rw [doses]
  by_cases hlength : e.length = 0
  · rw [if_pos hlength, Nat.cast_eq_one, or_iff_right (not_not.mpr hlength)]
  · rw [if_neg hlength]
    exact iff_of_true rfl (.inl hlength)

end Element

/-- A way of particles through a corrector: in the plane of the corrector they are turned by its strength as often as
it gives it, and no other angle and no momentum changes. -/
structure Kicks (turn : PhaseVector ℝ → PhaseVector ℝ) (plane : Plane) (strength doses : ℝ) : Prop where
  angle : ∀ v, (turn v).get plane.angle = v.get plane.angle + strength * doses
  rest : ∀ v c, c.IsSteady → c ≠ plane.angle → (turn v).get c = v.get c

theorem Kicks.once_iff {turn : PhaseVector ℝ → PhaseVector ℝ} {plane : Plane} {strength doses : ℝ}
    (h : Kicks turn plane strength doses) :
    (∀ v, (turn v).get plane.angle = v.get plane.angle + strength) ↔ doses = 1 ∨ strength = 0 := by
  have hangle (v : PhaseVector ℝ) :
      (turn v).get plane.angle = v.get plane.angle + strength ↔ strength * doses = strength := by
    rw [h.angle]
    exact add_right_inj _
  rw [forall_congr' hangle, forall_const, mul_right_eq_self₀]

namespace Pass

/-- In any count of slices a corrector kicks, among processes without effective radiation. -/
theorem exists_kicks_inSlices {processes : List (BeamProcess ℝ)} {e : Element ℝ} {plane : Plane} {built : ℝ}
    (hmild : ∀ p ∈ processes, p.IsMild e) (hoptics : e.optics = .corrector plane built) (signals : Signals ℝ) {n : Nat}
    (hn : n ≠ 0) :
    ∃ t : AffineTurn, Carries (inSlices processes signals e n) t ∧
      Kicks t.act plane (signals.strength e) (e.doses n) := by
  have hmap : e.transferMap (e.length / n) = .ok (.drift (e.length / n)) := by
    rw [Element.transferMap, hoptics]
  have hslice {c : Coordinate} (hc : c.IsSteady) (v : PhaseVector ℝ) :=
    AffineTurn.get_act_kick hc (e.length / n) (e.kick (signals.strength e) (e.length / n))
      ((BeamProcess.inOrder BeamProcess.kind processes |>.map fun p => p.stretch e).sum * (e.length / n)) v
  refine ⟨_, carries_inSlices hmild signals hn hmap, fun v => ?_, fun v c hc hangle => ?_⟩
  · rw [AffineTurn.get_act_times (hslice (Coordinate.isSteady_angle plane)), Element.get_kick_corrector hoptics,
      if_pos rfl, Element.mul_kickShare _ _ hn]
  · rw [AffineTurn.get_act_times (hslice hc), Element.get_kick_corrector hoptics, if_neg hangle, mul_zero, add_zero]

end Pass

namespace Ride

theorem exists_kicks_throughElement {t : Tracker ℝ} {ride : Ride ℝ} {e : Element ℝ} {plane : Plane} {built : ℝ} {n : Nat}
    (hoptics : e.optics = .corrector plane built) (hmild : ∀ p ∈ ride.plant.processesOf t.processes, p.IsMild e)
    (hn : n ≠ 0) (hcount : Pass.stepCount (ride.plant.processesOf t.processes) e = .ok n) :
    ∃ turn, (throughElement t e).reach ride = .ok { ride with bunch := ride.bunch.mapParticles turn } ∧
      Kicks turn plane (ride.plant.signals.strength e) (e.doses n) := by
  obtain ⟨turn, hcarries, hkicks⟩ := Pass.exists_kicks_inSlices hmild hoptics ride.plant.signals hn
  have hmonitor : e.isMonitor = false := by rw [Element.isMonitor, hoptics]
  refine ⟨turn.act, reach_throughElement_of_through hmonitor ?_, hkicks⟩
  rw [Pass.through_eq_inSlices hcount, hcarries]

end Ride

/-- A tracker takes every particle of a bunch through a corrector, in as many slices as the processes ask for, and
gives it the strength of the corrector: once if the corrector is long, and once in each slice if it is thin. So the
kick does not depend on the processes for long correctors, and for thin ones only as long as nothing slices them. -/
theorem correctors_kick_once_unless_sliced_thin (t : Tracker ℝ) (ride : Ride ℝ) (e : Element ℝ) (plane : Plane)
    (built : ℝ) (hoptics : e.optics = .corrector plane built)
    (hset : ∀ p ∈ ride.plant.processesOf t.processes, p.IsSet) :
    ∃ n turn, 1 ≤ n ∧ Pass.stepCount (ride.plant.processesOf t.processes) e = .ok n ∧
      (Ride.throughElement t e).reach ride = .ok { ride with bunch := ride.bunch.mapParticles turn } ∧
      Kicks turn plane (ride.plant.signals.strength e) (if e.length = 0 then n else 1) ∧
      ((∀ v, (turn v).get plane.angle = v.get plane.angle + ride.plant.signals.strength e) ↔
        e.length ≠ 0 ∨ n = 1 ∨ ride.plant.signals.strength e = 0) := by
  have hbend : e.isBend = false := by
    rw [Element.isBend, hoptics]
    rfl
  have hmild : ∀ p ∈ ride.plant.processesOf t.processes, p.IsMild e :=
    fun p hp => BeamProcess.isMild_of_isSet (hset p hp) hbend
  obtain ⟨n, hn, hcount⟩ := Pass.exists_stepCount hmild
  obtain ⟨turn, hreach, hkicks⟩ := Ride.exists_kicks_throughElement hoptics hmild hn hcount
  refine ⟨n, turn, Nat.one_le_iff_ne_zero.mpr hn, hcount, hreach, hkicks, ?_⟩
  rw [hkicks.once_iff, Element.doses_eq_one_iff, or_assoc]

namespace Cell

/-- A thin corrector. -/
noncomputable def steerer : Element ℝ := ⟨4, "C", "Corrector", 0, .corrector .x 1⟩

/-- A tracker with the first process of its plant attached. -/
noncomputable def tracker : Tracker ℝ := { processes := [0] }

/-- One particle on the axis, with the slicer in the plant. -/
noncomputable def axis : Ride ℝ where
  bunch := ⟨1, 1, [0]⟩
  plant := { processes := Table.empty.insert 0 slicer }

theorem isSet_slicer : ∀ p ∈ axis.plant.processesOf tracker.processes, p.IsSet :=
  List.forall_mem_singleton.mpr (.inr (by decide))

theorem corrector_of_the_cell_kicks_once_unless_sliced_thin :
    ∃ n turn, 1 ≤ n ∧ Pass.stepCount (axis.plant.processesOf tracker.processes) steerer = .ok n ∧
      (Ride.throughElement tracker steerer).reach axis = .ok { axis with bunch := axis.bunch.mapParticles turn } ∧
      Kicks turn .x 1 (if steerer.length = 0 then n else 1) := by
  obtain ⟨n, turn, hn, hcount, hreach, hkicks, -⟩ :=
    correctors_kick_once_unless_sliced_thin tracker axis steerer .x 1 rfl isSet_slicer
  exact ⟨n, turn, hn, hcount, hreach, hkicks⟩

theorem stepCount_steerer : Pass.stepCount (axis.plant.processesOf tracker.processes) steerer = .ok 8 := by
  change Pass.stepCount [slicer] steerer = _
  rw [Pass.stepCount]
  simp only [List.mapM_cons, requestedSteps_slicer]
  rfl

/-- The strength of the thin corrector is one, and in eight slices a particle on the axis gets eight times that. -/
theorem steerer_kicks_eightfold :
    axis.plant.signals.strength steerer = 1 ∧
      ∃ ride, (Ride.throughElement tracker steerer).reach axis = .ok ride ∧
        ride.bunch.particles.map PhaseVector.xp = [8] ∧
        ride.bunch.particles.map PhaseVector.xp ≠
          axis.bunch.particles.map fun v => v.xp + axis.plant.signals.strength steerer := by
  have hstrength : axis.plant.signals.strength steerer = 1 := rfl
  have hmild : ∀ p ∈ axis.plant.processesOf tracker.processes, p.IsMild steerer :=
    fun p hp => BeamProcess.isMild_of_isSet (isSet_slicer p hp) rfl
  have hoptics : steerer.optics = .corrector .x 1 := rfl
  obtain ⟨turn, hreach, hkicks⟩ := Ride.exists_kicks_throughElement hoptics hmild (by decide) stepCount_steerer
  have hdoses : steerer.doses 8 = 8 := (if_pos rfl).trans (Nat.cast_ofNat (n := 8))
  have hangle : (turn 0).xp = 8 := by
    refine (hkicks.angle 0).trans ?_
    rw [hstrength, hdoses, PhaseVector.get_zero, zero_add, one_mul]
  have hparticles : (axis.bunch.mapParticles turn).particles.map PhaseVector.xp = [8] := congrArg (fun a => [a]) hangle
  refine ⟨hstrength, _, hreach, hparticles, ?_⟩
  rw [hparticles, hstrength]
  change [(8 : ℝ)] ≠ [0 + 1]
  norm_num

end Cell

end BeamOptics
