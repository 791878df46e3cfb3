import Mathlib.Data.List.GetD
import BeamOptics.Proofs.ClosedOrbit.AffineSearch
import BeamOptics.Proofs.ClosedOrbit.Restart
import BeamOptics.Proofs.Exact.EnergyLoss
import BeamOptics.Proofs.Exact.PathLength

/-!
# Searches and path lengths

A search in the transverse plane never looks at a path length. So neither the path length of its guess nor the process
that its settings call for to rescale the path in bends matters to it: it makes the same steps and ends in the same
orbit, but for the path length that the guess has brought along.
-/

namespace BeamOptics

open OrbitSearch

/-! ### One step -/

noncomputable def Newton.Step.lengthen (a : ℝ) (step : Newton.Step ℝ) : Newton.Step ℝ :=
  { step with orbit := step.orbit + .ofCt a }

namespace Newton

theorem displaced_add_ofCt (solved : List Coordinate) (delta : ℝ) (orbit : PhaseVector ℝ) (a : ℝ) (c : Coordinate) :
    displaced solved delta (orbit + .ofCt a) c = displaced solved delta orbit c + .ofCt a := by
  apply PhaseVector.ext_get
  intro d
  rw [PhaseVector.get_add, displaced, displaced, PhaseVector.get_ofFn, PhaseVector.get_ofFn, PhaseVector.get_add]
  split
  · exact add_right_comm _ _ _
  · rfl

theorem probe_add_ofCt (solved : List Coordinate) (delta : ℝ) (orbit : PhaseVector ℝ) (a : ℝ) :
    probe solved delta (orbit + .ofCt a) = (probe solved delta orbit).map (AffineTurn.lengthening a).act := by
  rw [probe, probe, List.map_cons, List.map_map, AffineTurn.act_lengthening]
  refine congrArg ((orbit + .ofCt a) :: ·) (List.map_congr_left fun c _ => ?_)
  rw [displaced_add_ofCt, Function.comp_apply, AffineTurn.act_lengthening]

theorem correct_add_ofCt {solved : List Coordinate} (orbit : PhaseVector ℝ) (a : ℝ)
    (correction : Vector ℝ solved.length) :
    correct solved (orbit + .ofCt a) correction = correct solved orbit correction + .ofCt a := by
  apply PhaseVector.ext_get
  intro c
  rw [PhaseVector.get_add, get_correct, get_correct, PhaseVector.get_add]
  exact add_sub_right_comm _ _ _

/-- Nothing that a transverse search solves for is a path length. -/
theorem get_transverse_add_ofCt (i : Fin (coordinates true).length) (v : PhaseVector ℝ) (a : ℝ) :
    (v + .ofCt a).get (coordinates true)[i] = v.get (coordinates true)[i] := by
  have htransverse : ∀ c ∈ coordinates true, c ≠ .ct := by decide
  exact PhaseVector.get_add_ofCt (htransverse _ (List.getElem_mem i.isLt)) v a

theorem jacobian_add_ofCt (delta : ℝ) (reference : PhaseVector ℝ) (images : List (PhaseVector ℝ)) (a : ℝ) :
    jacobian (coordinates true) delta (reference + .ofCt a) (images.map (· + .ofCt a)) =
      jacobian (coordinates true) delta reference images := by
  have himage (column : Nat) : (images.map (· + .ofCt a)).getD column (reference + .ofCt a) =
      images.getD column reference + .ofCt a :=
    List.getD_map images reference (· + PhaseVector.ofCt a)
  unfold jacobian
  congr 1
  funext row column
  rw [himage, get_transverse_add_ofCt, get_transverse_add_ofCt]

theorem project_sub_add_ofCt (reference orbit : PhaseVector ℝ) (a b : ℝ) :
    project (coordinates true) (reference + .ofCt a - (orbit + .ofCt b)) =
      project (coordinates true) (reference - orbit) := by
  unfold project
  congr 1
  funext i
  rw [PhaseVector.get_sub, PhaseVector.get_sub, get_transverse_add_ofCt, get_transverse_add_ofCt]

/-- A step takes nothing from the path lengths of orbit and images but what the orbit brings along. -/
theorem step_add_ofCt (decompose : Decomposer ℝ) (delta threshold : ℝ) (orbit : PhaseVector ℝ)
    (images : List (PhaseVector ℝ)) (a b : ℝ) :
    step decompose (coordinates true) delta threshold (orbit + .ofCt a) (images.map (· + .ofCt b)) =
      Step.lengthen a <$> step decompose (coordinates true) delta threshold orbit images := by
  cases images with
  | nil => rfl
  | cons reference rest =>
    simp only [step, List.map_cons, jacobian_add_ofCt, project_sub_add_ofCt, correct_add_ofCt]
    cases decompose _ (jacobian (coordinates true) delta reference rest) <;> rfl

end Newton

namespace OrbitSearch

/-! ### One search -/

noncomputable def Progress.lengthen (a : ℝ) (p : Progress ℝ) : Progress ℝ := { p with orbit := p.orbit + .ofCt a }

/-- A result with something added to the path length of its orbit. -/
noncomputable def lengthen (a : ℝ) (result : OrbitResult ℝ) : OrbitResult ℝ :=
  { result with orbit := result.orbit + .ofCt a }

theorem stepFrom_add_ofCt {c : OrbitConfig ℝ} (htransverse : c.transverseOnly = true) {a' : ℝ}
    {through through' : Bunch ℝ → Except Fault (Bunch ℝ)} (h : Lengthens a' through through')
    (decompose : Decomposer ℝ) (momentum : ℝ) (orbit : PhaseVector ℝ) (a : ℝ) :
    stepFrom decompose c momentum through' (orbit + .ofCt a) =
      Newton.Step.lengthen a <$> stepFrom decompose c momentum through orbit := by
  have hsolved : solved c = Newton.coordinates true := by rw [solved, htransverse]
  have hprobe : (⟨momentum, 1, Newton.probe (solved c) c.delta (orbit + .ofCt a)⟩ : Bunch ℝ) =
      (⟨momentum, 1, Newton.probe (solved c) c.delta orbit⟩ : Bunch ℝ).lengthen fun _ => a := by
    rw [← Bunch.mapParticles_lengthening, Newton.probe_add_ofCt]
    rfl
  have himages (b : Bunch ℝ) :
      (b.lengthen fun _ => a + a').particles = b.particles.map (· + .ofCt (a + a')) := by
    rw [← Bunch.mapParticles_lengthening, ← funext (AffineTurn.act_lengthening (a + a'))]
    rfl
  rw [stepFrom, stepFrom, hprobe, h, bind_map_left, map_bind]
  refine bind_congr fun b => ?_
  rw [himages, hsolved]
  exact Newton.step_add_ofCt decompose c.delta c.svdThreshold orbit b.particles a (a + a')

theorem follow_lengthen (tolerance : ℝ) {a : ℝ} {next next' : PhaseVector ℝ → Except Fault (Newton.Step ℝ)}
    (h : ∀ orbit, next' (orbit + .ofCt a) = Newton.Step.lengthen a <$> next orbit) (n : Nat) (p : Progress ℝ) :
    follow tolerance next' n (p.lengthen a) = Progress.lengthen a <$> follow tolerance next n p := by
  induction n generalizing p with
  | zero => rfl
  | succ n ih =>
    have hresidual : (p.lengthen a).residual = p.residual := rfl
    have hstep : next' (p.lengthen a).orbit = Newton.Step.lengthen a <$> next p.orbit := h p.orbit
    rw [follow, follow, hresidual]
    split
    · rw [hstep, bind_map_left, map_bind]
      exact bind_congr fun step => ih (p.after step)
    · rfl

theorem conclude_lengthen (c : OrbitConfig ℝ) (a : ℝ) (p : Progress ℝ) :
    conclude c (p.lengthen a) = lengthen a <$> conclude c p := by
  have hresidual : (p.lengthen a).residual = p.residual := rfl
  have hcorrection : (p.lengthen a).correction = p.correction := rfl
  unfold conclude
  rw [hresidual, hcorrection]
  dsimp only
  split <;> rfl

/-- Settings of a search with another factor for the path length in bends. -/
def withBendScale (c : OrbitConfig ℝ) (scale : ℝ) : OrbitConfig ℝ := { c with bendScale := scale }

theorem isSet_of_mem_transients {c : OrbitConfig ℝ} {p : BeamProcess ℝ} (h : p ∈ transients c) : p.IsSet := by
  unfold transients at h
  dsimp only at h
  rcases List.mem_append.mp h with h | hcheck
  · rcases List.mem_append.mp h with hradiation | hscaling
    · split at hradiation
      · obtain rfl := List.mem_singleton.mp hradiation
        split
        · next hsize => exact .inl (of_decide_eq_true hsize)
        · exact .inr (le_max_left 1 _)
      · exact absurd hradiation List.not_mem_nil
    · split at hscaling
      · exact absurd hscaling List.not_mem_nil
      · obtain rfl := List.mem_singleton.mp hscaling
        trivial
  · split at hcheck
    · obtain rfl := List.mem_singleton.mp hcheck
      trivial
    · exact absurd hcheck List.not_mem_nil

/-- What settings call for before a process for the path length. -/
noncomputable def leading (c : OrbitConfig ℝ) : List (BeamProcess ℝ) := transients { c with bendScale := 0, checkFinite := false }

/-- What settings call for behind a process for the path length. -/
noncomputable def trailing (c : OrbitConfig ℝ) : List (BeamProcess ℝ) := transients { c with bendScale := 0, radiation := false }

theorem transients_withBendScale_zero (c : OrbitConfig ℝ) :
    transients (withBendScale c 0) = leading c ++ trailing c := by
  cases hcheck : c.checkFinite <;> simp [transients, withBendScale, leading, trailing, hcheck]

theorem transients_withBendScale (c : OrbitConfig ℝ) {scale : ℝ} (h : scale ≠ 0) :
    transients (withBendScale c scale) = leading c ++ .ringDelta scale :: trailing c := by
  cases hcheck : c.checkFinite <;> simp [transients, withBendScale, leading, trailing, hcheck, h]

theorem transport_site (c : OrbitConfig ℝ) {s : Station ℝ} (hholds : s.plant.Holds s.tracker.processes) (r : Range ℝ) :
    (site c r s).transport r =
      r.transport (s.plant.processesOf s.tracker.processes ++ transients c) s.plant.signals := by
  obtain ⟨hstrengths, hprocesses⟩ := Prod.ext_iff.mp (regime_site c r hholds)
  simp only [Station.regime] at hstrengths hprocesses
  rw [Station.transport, hprocesses]
  exact Range.transport_congr_strengths _ hstrengths r

variable {s : Station ℝ} {r : Range ℝ}

/-- Whatever the factor, at the sites of two searches bunches end up the same but for one path length. -/
theorem exists_lengthens_site (hholds : s.plant.Holds s.tracker.processes)
    (hset : ∀ p ∈ s.plant.processesOf s.tracker.processes, p.IsSet)
    (himplicit : ∀ e ∈ r.elements, e.optics.explicit = false) (c : OrbitConfig ℝ) (scale : ℝ) :
    ∃ a, Lengthens a ((site c r s).transport r) ((site (withBendScale c scale) r s).transport r) := by
  have hall : ∀ p ∈ (s.plant.processesOf s.tracker.processes ++ leading c) ++ trailing c, p.IsSet := by
    intro p hp
    rcases List.mem_append.mp hp with hp | htrailing
    · exact (List.mem_append.mp hp).elim (hset p) isSet_of_mem_transients
    · exact isSet_of_mem_transients htrailing
  have hfrom (scale : ℝ) : ∃ a, Lengthens a ((site (withBendScale c 0) r s).transport r)
      ((site (withBendScale c scale) r s).transport r) := by
    rw [transport_site _ hholds, transport_site _ hholds]
    by_cases hscale : scale = 0
    · rw [hscale]
      exact ⟨0, Range.lengthens_transport himplicit _ _⟩
    · rw [transients_withBendScale_zero, transients_withBendScale c hscale, ← List.append_assoc, ← List.append_assoc]
      exact ⟨_, Range.lengthens_transport_insert himplicit (fun e _ => Pass.stepCount_insert hall scale e) _⟩
  obtain ⟨a, ha⟩ := hfrom c.bendScale
  obtain ⟨b, hb⟩ := hfrom scale
  exact ⟨b - a, ha.between hb⟩

/-- A search in the transverse plane ends as it does with any other factor, and from any other path length. -/
theorem outcome_find_add_ofCt (hholds : s.plant.Holds s.tracker.processes)
    (hset : ∀ p ∈ s.plant.processesOf s.tracker.processes, p.IsSet)
    (himplicit : ∀ e ∈ r.elements, e.optics.explicit = false) {c : OrbitConfig ℝ}
    (htransverse : c.transverseOnly = true) (decompose : Decomposer ℝ) (momentum : ℝ) (guess : PhaseVector ℝ)
    (scale a : ℝ) :
    ((find decompose (withBendScale c scale) momentum r (guess + .ofCt a)).run s).1 =
      lengthen a <$> ((find decompose c momentum r guess).run s).1 := by
  obtain ⟨b, hsites⟩ := exists_lengthens_site hholds hset himplicit c scale
  have hstep (orbit : PhaseVector ℝ) :
      stepAt decompose (withBendScale c scale) momentum r s (orbit + .ofCt a) =
        Newton.Step.lengthen a <$> stepAt decompose c momentum r s orbit :=
    stepFrom_add_ofCt htransverse hsites decompose momentum orbit a
  have hfollow := follow_lengthen c.tolerance hstep (budget c) { orbit := guess, correction := 0 }
  have hconclude (p : Progress ℝ) : conclude (withBendScale c scale) (p.lengthen a) = lengthen a <$> conclude c p :=
    conclude_lengthen c a p
  rw [outcome_find_eq, outcome_find_eq, map_bind]
  change follow c.tolerance _ (budget c) (Progress.lengthen a { orbit := guess, correction := 0 }) >>= _ = _
  rw [hfollow, bind_map_left]
  exact bind_congr hconclude

/-- Without explicit maps, a process that rescales the path in bends and asks for no more steps adds one length to the
paths of all particles, by the factor and the bends alone. Bunches that differ in path lengths still differ by the same
lengths behind the range, and in nothing else. And a transverse search knows neither of the factor nor of the path
length it starts with: both leave its steps, its residual and its verdict as they are, and its orbit but for the path
length. -/
theorem path_lengths_are_only_added_to (s : Station ℝ) {r : Range ℝ}
    (himplicit : ∀ e ∈ r.elements, e.optics.explicit = false) :
    (∀ number scale, s.tracker.range = some r → s.plant.processes.get? number = some (.ringDelta scale) →
      (∀ e ∈ r.elements, Pass.stepCount (s.plant.processesOf s.tracker.processes ++ [.ringDelta scale]) e =
        Pass.stepCount (s.plant.processesOf s.tracker.processes) e) →
      ∀ b, ((Station.attach number).run s).2.tracked b =
        (Bunch.lengthen fun _ => -scale * r.bendLength) <$> s.tracked b) ∧
    (s.tracker.range = some r → ∀ b c : Bunch ℝ, b.SameButCt c →
      (∃ fault, s.tracked b = .error fault ∧ s.tracked c = .error fault) ∨
      ∃ b' c', s.tracked b = .ok b' ∧ s.tracked c = .ok c' ∧ b'.SameButCt c' ∧ b'.gaps c' = b.gaps c) ∧
    (s.plant.Holds s.tracker.processes → (∀ p ∈ s.plant.processesOf s.tracker.processes, p.IsSet) →
      ∀ decompose (c : OrbitConfig ℝ) momentum guess scale a, c.transverseOnly = true →
        ((find decompose (withBendScale c scale) momentum r (guess + .ofCt a)).run s).1 =
          lengthen a <$> ((find decompose c momentum r guess).run s).1) := by
  refine ⟨?_, ?_, ?_⟩
  · intro number scale hrange hnumber hcount b
    have hattached := Station.lengthens_tracked_attach hrange himplicit hnumber hcount b fun _ => 0
    rw [Bunch.lengthen_zero] at hattached
    simpa only [zero_add] using hattached
  · intro hrange b c hsame
    obtain ⟨shift, rfl⟩ := hsame.exists_lengthen
    have htracked := Station.lengthens_tracked hrange himplicit b shift
    simp only [add_zero] at htracked
    cases hb : s.tracked b with
    | error fault =>
      rw [hb] at htracked
      exact .inl ⟨fault, rfl, htracked⟩
    | ok b' =>
      rw [hb] at htracked
      have htransport : s.transport r b = .ok b' := (Station.outcome_trackBunch hrange b).symm.trans hb
      have hsize : b'.size = b.size := Range.view_transport Bunch.steady_size htransport
      refine .inr ⟨b', _, rfl, htracked, b'.sameButCt_lengthen shift, ?_⟩
      rw [Bunch.gaps_lengthen, Bunch.gaps_lengthen, hsize]
  · intro hholds hset decompose c momentum guess scale a htransverse
    exact outcome_find_add_ofCt hholds hset himplicit htransverse decompose momentum guess scale a

end OrbitSearch

namespace Cell

open OrbitSearch

/-- A tracker of the drift and the dipole, where the reference follows the loss, and a factor for the path at hand. -/
noncomputable def rescaling : Station ℝ where
  tracker := { range := some bending, processes := [0] }
  plant := { processes := (Table.empty.insert 0 (.radiation ⟨3, 0, true⟩)).insert 1 (.ringDelta (-1)) }

theorem processesOf_rescaling :
    rescaling.plant.processesOf rescaling.tracker.processes = [.radiation ⟨3, 0, true⟩] := by
  have hfirst : rescaling.plant.processes.get? 0 = some (.radiation ⟨3, 0, true⟩) := rfl
  rw [Plant.processesOf]
  exact List.filterMap_cons_some hfirst

theorem isSet_rescaling : ∀ p ∈ rescaling.plant.processesOf rescaling.tracker.processes, p.IsSet := by
  rw [processesOf_rescaling]
  exact List.forall_mem_singleton.mpr (.inr (by decide))

/-- The dipole is all that bends, over a unit of length. -/
theorem bendLength_bending : bending.bendLength = 1 := by
  have hbends : bending.elements.filter (·.isBend) = [dipole] := rfl
  rw [Range.bendLength, hbends, Element.totalLength, Scalar.sum_real]
  exact add_zero (1 : ℝ)

theorem path_lengths_in_the_cell :
    (∃ b', rescaling.tracked bunch = .ok b' ∧
      ((Station.attach 1).run rescaling).2.tracked bunch = .ok (b'.lengthen fun _ => 1)) ∧
    (∃ b' c', rescaling.tracked bunch = .ok b' ∧ rescaling.tracked (bunch.lengthen fun _ => 4) = .ok c' ∧
      b'.SameButCt c' ∧ b'.gaps c' = [4]) ∧
    ((find (fun n _ => some (KickedRing.decomposition n)) (withBendScale KickedRing.config 7) 1 bending
      (0 + .ofCt 5)).run rescaling).1 =
        lengthen 5 <$> ((find (fun n _ => some (KickedRing.decomposition n)) KickedRing.config 1 bending 0).run
          rescaling).1 := by
  have hrange : rescaling.tracker.range = some bending := rfl
  have hnumber : rescaling.plant.processes.get? 1 = some (.ringDelta (-1)) := rfl
  have hholds : rescaling.plant.Holds rescaling.tracker.processes := List.forall_mem_singleton.mpr ⟨_, rfl⟩
  have hcount (e : Element ℝ) :
      Pass.stepCount (rescaling.plant.processesOf rescaling.tracker.processes ++ [.ringDelta (-1)]) e =
        Pass.stepCount (rescaling.plant.processesOf rescaling.tracker.processes) e := by
    have hset : ∀ p ∈ rescaling.plant.processesOf rescaling.tracker.processes ++ [], p.IsSet := by
      rw [List.append_nil]
      exact isSet_rescaling
    rw [Pass.stepCount_insert hset, List.append_nil]
  obtain ⟨hattached, hbunches, hsearch⟩ := path_lengths_are_only_added_to rescaling implicit_bending
  obtain ⟨b', hb'⟩ := Station.exists_tracked isSet_rescaling hrange bunch
  refine ⟨⟨b', hb', ?_⟩, ?_, ?_⟩
  · have hshift : - -1 * bending.bendLength = 1 := by rw [bendLength_bending, neg_neg, mul_one]
    rw [hattached 1 (-1) hrange hnumber (fun e _ => hcount e) bunch, hb', hshift]
    rfl
  · have hsame := bunch.sameButCt_lengthen fun _ => 4
    rcases hbunches hrange _ _ hsame with ⟨fault, hfault, -⟩ | ⟨b', c', hb', hc', hsame', hgaps⟩
    · rw [hb'] at hfault
      cases hfault
    · refine ⟨b', c', hb', hc', hsame', ?_⟩
      rw [hgaps, Bunch.gaps_lengthen]
      rfl
  · exact hsearch hholds isSet_rescaling _ KickedRing.config 1 0 7 5 rfl

end Cell

end BeamOptics
