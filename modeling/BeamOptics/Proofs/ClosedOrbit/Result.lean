import BeamOptics.Proofs.ClosedOrbit.Course
import BeamOptics.Proofs.Scalar.Order

/-!
# Results of searches

What a result says about the steps behind it, whatever the tracking of a probe makes of the orbits on the way. The
bounds on residual and correction are what keeps a value out that is no number.
-/

namespace BeamOptics

namespace OrbitSearch

variable {α : Type} [Scalar α] {decompose : Decomposer α} {c : OrbitConfig α}

/-! ### Steps -/

theorem orbit_of_step {solved : List Coordinate} {delta threshold : α} {orbit : PhaseVector α}
    {images : List (PhaseVector α)} {step : Newton.Step α}
    (h : Newton.step decompose solved delta threshold orbit images = .ok step) :
    ∃ correction, step.orbit = Newton.correct solved orbit correction := by
  unfold Newton.step at h
  split at h
  · cases h
  · split at h
    · cases h
    · obtain rfl := Except.ok.inj h
      exact ⟨_, rfl⟩

/-- A step in the transverse plane alone leaves path length and momentum deviation as they are. -/
theorem longitudinal_of_stepFrom (htransverse : c.transverseOnly = true) {momentum : α}
    {through : Bunch α → Except Fault (Bunch α)} {orbit : PhaseVector α} {step : Newton.Step α}
    (h : stepFrom decompose c momentum through orbit = .ok step) :
    (step.orbit.ct, step.orbit.dp) = (orbit.ct, orbit.dp) := by
  obtain ⟨b, -, hstep⟩ := bind_eq_ok_iff.mp h
  obtain ⟨correction, horbit⟩ := orbit_of_step hstep
  have hct : Coordinate.ct ∉ solved c := by
    rw [solved, htransverse]
    decide
  have hdp : Coordinate.dp ∉ solved c := by
    rw [solved, htransverse]
    decide
  rw [horbit]
  exact Prod.ext (Newton.get_correct_of_not_mem orbit correction hct)
    (Newton.get_correct_of_not_mem orbit correction hdp)

/-! ### Conclusions -/

theorem conclude_eq_ok_iff {p : Progress α} {result : OrbitResult α} :
    conclude c p = .ok result ↔
      (∀ w, p.residual = some w → Scalar.le 0 w = true) ∧ Scalar.le 0 p.correction = true ∧
        result = ⟨p.orbit, meets c.tolerance p.residual, p.steps, p.residual, p.correction⟩ := by
  obtain ⟨orbit, residual, correction, steps⟩ := p
  cases hcorrection : Scalar.le 0 correction with
  | false =>
    cases residual with
    | none => simp [conclude, hcorrection]
    | some w => cases hw : Scalar.le 0 w <;> simp [conclude, hcorrection, hw]
  | true =>
    cases residual with
    | none =>
      simp only [conclude, hcorrection, if_true, List.append_nil, Except.ok.injEq]
      exact ⟨fun h => ⟨nofun, trivial, h.symm⟩, fun h => h.2.2.symm⟩
    | some w =>
      cases hw : Scalar.le 0 w with
      | false => simp [conclude, hw]
      | true =>
        simp only [conclude, hcorrection, hw, if_true, List.append_nil, Except.ok.injEq]
        exact ⟨fun h => ⟨fun v hv => Option.some.inj hv ▸ hw, trivial, h.symm⟩, fun h => h.2.2.symm⟩

variable [Scalar.Ordered α]

/-- A measured residual that is a number meets a finite tolerance unless it is above it. -/
theorem meets_of_not_above {tolerance : α} (hfinite : Scalar.isFinite tolerance = true) {residual : Option α}
    (hnumber : ∀ w, residual = some w → Scalar.isNumber w = true) (h : above tolerance residual = false) :
    meets tolerance residual = true := by
  cases residual with
  | none => exact absurd (hfinite.symm.trans h) (by decide)
  | some w =>
    have hlt := Scalar.Ordered.lt_eq_not_le (Scalar.Ordered.isNumber_of_isFinite hfinite) (hnumber w rfl)
    have hle : (!Scalar.le w tolerance) = false := hlt.symm.trans h
    exact (Bool.not_eq_false' _).mp hle

/-! ### Results -/

/-- What the result of a search that started at `guess` has to say about the steps that were made. -/
structure Reports (c : OrbitConfig α) (guess : PhaseVector α) (trail : List (Newton.Step α))
    (result : OrbitResult α) : Prop where
  iterations : result.iterations = trail.length
  within : result.iterations ≤ c.maxIterations - 1
  converged_iff : result.converged = true ↔ ∃ w, result.residual = some w ∧ Scalar.le w c.tolerance = true
  /-- Nothing has converged without a step. -/
  stepped : result.converged = true → trail ≠ []
  exhausted : result.converged = false → result.iterations = c.maxIterations - 1
  residual : result.residual = trail.getLast?.map Newton.Step.residual
  earlier : ∀ step ∈ trail.dropLast, Scalar.lt c.tolerance step.residual = true
  residual_number : ∀ w, result.residual = some w → Scalar.isNumber w = true
  correction_number : Scalar.isNumber result.correction = true
  longitudinal : c.transverseOnly = true → result.orbit.ct = guess.ct ∧ result.orbit.dp = guess.dp

theorem reports_of_follow (hfinite : Scalar.isFinite c.tolerance = true) (hbudget : 1 ≤ c.maxIterations)
    {momentum : α} {through : Bunch α → Except Fault (Bunch α)} {guess : PhaseVector α} {p : Progress α}
    {result : OrbitResult α}
    (hfollow : follow c.tolerance (stepFrom decompose c momentum through) (budget c)
      { orbit := guess, correction := 0 } = .ok p)
    (hconclude : conclude c p = .ok result) :
    ∃ trail, Trail c.tolerance (stepFrom decompose c momentum through) { orbit := guess, correction := 0 } trail ∧
      Reports c guess trail result := by
  obtain ⟨trail, htrail, hp, hlength, hend⟩ := exists_trail_of_follow hfollow
  obtain ⟨hresidual, hcorrection, hresult⟩ := conclude_eq_ok_iff.mp hconclude
  have hnumber (w : α) (hw : p.residual = some w) : Scalar.isNumber w = true :=
    (Scalar.Ordered.isNumber_of_le (hresidual w hw)).2
  have hsteps : p.steps = trail.length := by
    rw [hp, steps_foldl_after, Nat.zero_add]
  have hlast : p.residual = trail.getLast?.map Newton.Step.residual := by
    rw [hp, residual_foldl_after, Option.or_none]
  have hspent : ((budget c : Nat) : Int) = c.maxIterations - 1 := Int.toNat_of_nonneg (by omega)
  subst hresult
  refine ⟨trail, htrail, ?_⟩
  constructor
  case iterations => exact congrArg Nat.cast hsteps
  case within =>
    change (p.steps : Int) ≤ _
    omega
  case converged_iff =>
    change meets c.tolerance p.residual = true ↔ _
    cases p.residual with
    | none => simp [meets, hfinite]
    | some w => simp [meets]
  case stepped =>
    rintro hconverged rfl
    change meets c.tolerance p.residual = true at hconverged
    rw [hlast] at hconverged
    simp [meets, hfinite] at hconverged
  case exhausted =>
    intro hunmet
    change meets c.tolerance p.residual = false at hunmet
    change (p.steps : Int) = _
    rcases hend with hfull | hover
    · omega
    · rw [meets_of_not_above hfinite hnumber hover] at hunmet
      cases hunmet
  case residual => exact hlast
  case earlier => exact htrail.above_of_mem_dropLast
  case residual_number => exact hnumber
  case correction_number => exact (Scalar.Ordered.isNumber_of_le hcorrection).2
  case longitudinal =>
    intro htransverse
    have horbit := htrail.view_orbit (fun orbit => (orbit.ct, orbit.dp)) (longitudinal_of_stepFrom htransverse)
    rw [← hp] at horbit
    exact Prod.ext_iff.mp horbit

/-- Whatever a search returns is true to the steps that it made, and nothing that could hold its guess has been
touched. -/
theorem find_reports (hfinite : Scalar.isFinite c.tolerance = true) (hbudget : 1 ≤ c.maxIterations)
    {momentum : α} {r : Range α} {guess : PhaseVector α} {s s' : Station α} {result : OrbitResult α}
    (h : (find decompose c momentum r guess).run s = (.ok result, s')) :
    (∃ trail, Trail c.tolerance (stepAt decompose c momentum r s) { orbit := guess, correction := 0 } trail ∧
      Reports c guess trail result) ∧
      s'.plant.bunches = s.plant.bunches ∧ s'.tracker.initial = s.tracker.initial := by
  have houtcome := outcome_find_eq decompose c momentum r guess s
  rw [h] at houtcome
  obtain ⟨p, hfollow, hconclude⟩ := bind_eq_ok_iff.mp houtcome.symm
  obtain ⟨hplant, processes, htracker⟩ := leaves_find decompose c momentum r guess s
  rw [h] at hplant htracker
  have hbunches : s'.plant.bunches = s.plant.bunches := (congrArg Plant.bunches hplant :)
  have hinitial : s'.tracker.initial = s.tracker.initial := (congrArg Tracker.initial htracker :)
  exact ⟨reports_of_follow hfinite hbudget hfollow hconclude, hbunches, hinitial⟩

end OrbitSearch

namespace DriftRing

/-- A turn that is a drift, so that only a beam without slopes closes. -/
def ring : Range Float := ⟨0, [⟨0, "D", "Drift", 1, .drift⟩]⟩

def station : Station Float := ⟨{ }, { }⟩

def config : OrbitConfig Float := { OrbitConfig.standard with transverseOnly := true, tolerance := 1, maxIterations := 3 }

/-- Finds no singular value above zero, so that nothing is ever corrected. -/
def blind : Decomposer Float :=
  fun n _ => some ⟨SquareMatrix.identity, Vector.replicate n 0, SquareMatrix.identity⟩

def slanted : PhaseVector Float := ⟨0, 2, 0, 0, 0, 0⟩

end DriftRing

namespace OrbitSearch

open DriftRing in
theorem find_reports_slanted :
    Scalar.isFinite config.tolerance = true ∧ 1 ≤ config.maxIterations ∧
      ∃ result trail, ((find blind config 1 ring slanted).run station).1 = .ok result ∧
        Reports config slanted trail result ∧ result.converged = false ∧ trail.length = 2 := by
  have hfinite : Scalar.isFinite config.tolerance = true := by decide
  have hbudget : 1 ≤ config.maxIterations := by decide
  refine ⟨hfinite, hbudget, ?_⟩
  obtain ⟨result, hresult, hends⟩ := exists_ok_of_any
    (show ((find blind config 1 ring slanted).run station).1.toOption.any (!·.converged) = true by decide +kernel)
  have hconverged : result.converged = false := (Bool.not_eq_true' _).mp hends
  obtain ⟨⟨trail, -, hreports⟩, -⟩ := find_reports hfinite hbudget (Prod.ext hresult rfl)
  have hspent : (trail.length : Int) = config.maxIterations - 1 :=
    hreports.iterations.symm.trans (hreports.exhausted hconverged)
  exact ⟨result, trail, hresult, hreports, hconverged, Int.ofNat.inj hspent⟩

end OrbitSearch

end BeamOptics
