import BeamOptics.LinearAlgebra.Jacobi
import BeamOptics.Proofs.ClosedOrbit.Result
import BeamOptics.Proofs.Tracking.Faults
import BeamOptics.Proofs.Tracking.Spreading

/-!
# Endings of searches

A search returns a result, or it stops: at a probe that does not get around, at a Jacobian that is not decomposed, or at
a last correction that is no number. Where matrices are refused that are not finite off the diagonal, a step is only
made from a finite orbit with a finite image, and then its residual is a number whatever its correction is.
-/

namespace BeamOptics

variable {α : Type} [Scalar α]

/-- Decomposers that have no answer for a matrix with an entry off the diagonal that is not finite. One that refuses
every matrix that is not finite throughout is among them. -/
def Decomposer.RefusesOffDiagonal (decompose : Decomposer α) : Prop :=
  ∀ (n : Nat) (m : SquareMatrix α n), (∃ i j, i ≠ j ∧ Scalar.isFinite (m.entry i j) = false) → decompose n m = none

theorem Decomposer.RefusesOffDiagonal.isFinite {decompose : Decomposer α} (h : decompose.RefusesOffDiagonal) {n : Nat}
    {m : SquareMatrix α n} {d : Svd α n} (hd : decompose n m = some d) {i j : Fin n} (hij : i ≠ j) :
    Scalar.isFinite (m.entry i j) = true := by
  by_contra hentry
  rw [h n m ⟨i, j, hij, (Bool.not_eq_true _).mp hentry⟩] at hd
  cases hd

theorem Jacobi.refusesOffDiagonal_decompose : decompose.RefusesOffDiagonal := by
  rintro n m ⟨i, j, hij, hentry⟩
  have hmem : (i, j, m.entry i j) ∈
      (List.finRange n).flatMap fun i => (List.finRange n).map fun j => (i, j, m.entry i j) := by simp
  unfold decompose
  rcases Double.isNaN_or_isInf hentry with hnan | hinf
  · exact if_pos (List.any_eq_true.mpr ⟨_, hmem, hnan⟩)
  · dsimp only
    split
    · rfl
    · exact if_pos (List.any_eq_true.mpr ⟨_, hmem, by simp [hinf, hij]⟩)

theorem SquareMatrix.dot_self {n : Nat} (v : Vector α n) : dot v v = Scalar.sum (v.toList.map Scalar.square) := by
  rw [dot, Vector.toList_zipWith, List.zipWith_self]
  rfl

namespace Newton

omit [Scalar α] in
theorem mem_project {solved : List Coordinate} {v : PhaseVector α} {a : α} :
    a ∈ (project solved v).toList ↔ ∃ row : Fin solved.length, v.get (solved.get row) = a := by
  rw [Vector.mem_toList_iff, project, Vector.mem_ofFn]
  rfl

theorem step_cons_of_none {decompose : Decomposer α} {solved : List Coordinate} {delta : α} {reference : PhaseVector α}
    {displaced : List (PhaseVector α)} (h : decompose _ (jacobian solved delta reference displaced) = none)
    (threshold : α) (orbit : PhaseVector α) :
    Newton.step decompose solved delta threshold orbit (reference :: displaced) = .error .noDecomposition := by
  rw [Newton.step, h]

theorem exists_of_step_cons {decompose : Decomposer α} {solved : List Coordinate} {delta threshold : α}
    {orbit reference : PhaseVector α} {displaced : List (PhaseVector α)} {step : Step α}
    (h : Newton.step decompose solved delta threshold orbit (reference :: displaced) = .ok step) :
    ∃ d, decompose _ (jacobian solved delta reference displaced) = some d ∧
      step.residual = SquareMatrix.dot (project solved (reference - orbit)) (project solved (reference - orbit)) ∧
      ∃ correction : Vector α solved.length, step.correction = SquareMatrix.dot correction correction := by
  cases hd : decompose _ (jacobian solved delta reference displaced) with
  | none =>
    rw [step_cons_of_none hd] at h
    cases h
  | some d =>
    rw [Newton.step, hd] at h
    obtain rfl := Except.ok.inj h
    exact ⟨d, rfl, rfl, _, rfl⟩

theorem step_cons_eq_error_iff {decompose : Decomposer α} {solved : List Coordinate} {delta threshold : α}
    {orbit reference : PhaseVector α} {displaced : List (PhaseVector α)} {fault : Fault} :
    Newton.step decompose solved delta threshold orbit (reference :: displaced) = .error fault ↔
      decompose _ (jacobian solved delta reference displaced) = none ∧ fault = .noDecomposition := by
  cases hd : decompose _ (jacobian solved delta reference displaced) with
  | none =>
    rw [step_cons_of_none hd]
    simp [eq_comm]
  | some d =>
    rw [Newton.step, hd]
    simp

end Newton

namespace OrbitSearch

/-! ### Turns -/

/-- What a step relies on when it sends its probe around: faults are faults of tracking, a finite image has a finite
start, and a check lets finite images through only. -/
structure IsTurn (c : OrbitConfig α) (through : Bunch α → Except Fault (Bunch α)) : Prop where
  tracking : ∀ b, FailsOnly (fun fault => fault.isTracking = true) (through b)
  vouches : ∀ {b b'}, through b = .ok b' → b'.VouchesFor b.particles
  checked : c.checkFinite = true → ∀ {b b'}, through b = .ok b' → b'.isFinite = true

theorem finiteness_mem_transients {c : OrbitConfig α} (h : c.checkFinite = true) :
    .finiteness true ∈ transients c := by
  rw [transients, h]
  exact List.mem_append_right _ (List.mem_singleton_self _)

theorem isTurn_site [Scalar.Absorbing α] (c : OrbitConfig α) {r : Range α} (hr : r.elements ≠ []) (s : Station α) :
    IsTurn c ((site c r s).transport r) where
  tracking b := Range.isTracking_transport _ _ r b
  vouches h := Range.vouchesFor_of_transport hr h
  checked hcheck _ _ h := Range.isFinite_of_transport hr (mem_equipped_of_mem (finiteness_mem_transients hcheck) _) h

variable {decompose : Decomposer α} {c : OrbitConfig α} {momentum : α} {through : Bunch α → Except Fault (Bunch α)}

omit [Scalar α] in
theorem two_le_length_solved (c : OrbitConfig α) : 2 ≤ (solved c).length := by
  unfold solved Newton.coordinates
  split <;> decide

/-- A probe that gets around has the image of its orbit in front. -/
theorem IsTurn.exists_images (hturn : IsTurn c through) {orbit : PhaseVector α} {b : Bunch α}
    (h : through ⟨momentum, 1, Newton.probe (solved c) c.delta orbit⟩ = .ok b) :
    ∃ reference displaced, b.particles = reference :: displaced ∧
      ∀ d, Scalar.isFinite (reference.get d) = true → orbit.isFinite = true := by
  have hvouches := hturn.vouches h
  rw [Bunch.VouchesFor, Newton.probe, List.forall₂_cons_left_iff] at hvouches
  obtain ⟨reference, displaced, hreference, -, hparticles⟩ := hvouches
  exact ⟨reference, displaced, hparticles, hreference⟩

/-! ### Steps -/

section

variable [Scalar.Absorbing α] [Scalar.Cumulative α]

/-- Whatever has been measured is not below zero: a residual always, a correction as long as it is a number. -/
structure Measured (p : Progress α) : Prop where
  residual : ∀ w, p.residual = some w → Scalar.le 0 w = true
  correction : Scalar.isNumber p.correction = true → Scalar.le 0 p.correction = true

omit [Scalar.Cumulative α] in
theorem isFinite_of_jacobian {solved : List Coordinate} {delta : α} {reference : PhaseVector α}
    {displaced : List (PhaseVector α)} {row column : Fin solved.length}
    (h : Scalar.isFinite ((Newton.jacobian solved delta reference displaced).entry row column) = true) :
    Scalar.isFinite (reference.get (solved.get row)) = true := by
  rw [Newton.jacobian, SquareMatrix.entry_ofFn] at h
  have hquotient := (Scalar.Absorbing.isFinite_of_sub h).1
  exact (Scalar.Absorbing.isFinite_of_sub (Scalar.Absorbing.isFinite_of_div hquotient)).2

/-- A step is made from a finite orbit, and measures what it should. -/
theorem measured_of_stepFrom (hdecompose : decompose.RefusesOffDiagonal) (hturn : IsTurn c through)
    {orbit : PhaseVector α} {step : Newton.Step α} (h : stepFrom decompose c momentum through orbit = .ok step) :
    orbit.isFinite = true ∧ ∀ p : Progress α, Measured (p.after step) := by
  obtain ⟨b, hb, hstep⟩ := bind_eq_ok_iff.mp h
  obtain ⟨reference, displaced, hparticles, hfront⟩ := hturn.exists_images hb
  rw [hparticles] at hstep
  obtain ⟨d, hd, hresidual, correction, hcorrection⟩ := Newton.exists_of_step_cons hstep
  have hsolved := two_le_length_solved c
  have : Nontrivial (Fin (solved c).length) := Fin.nontrivial_iff_two_le.mpr hsolved
  -- Every row of the Jacobian has an entry off the diagonal, and a coordinate of the image in it.
  have hreference (row : Fin (solved c).length) : Scalar.isFinite (reference.get ((solved c).get row)) = true := by
    obtain ⟨column, hcolumn⟩ := exists_ne row
    exact isFinite_of_jacobian (hdecompose.isFinite hd hcolumn.symm)
  have horbit : orbit.isFinite = true := hfront _ (hreference ⟨0, by omega⟩)
  refine ⟨horbit, fun p => ⟨?_, ?_⟩⟩
  · intro w hw
    obtain rfl := Option.some.inj hw
    -- Orbit and image are finite here, so their difference is a number, and only its square may be infinite.
    rw [hresidual, SquareMatrix.dot_self]
    refine Scalar.zero_le_sum_square fun a ha => ?_
    obtain ⟨row, rfl⟩ := Newton.mem_project.mp ha
    rw [PhaseVector.get_sub]
    exact Scalar.Absorbing.isNumber_sub (hreference row) (PhaseVector.isFinite_iff.mp horbit _)
  · intro hnumber
    change Scalar.isNumber step.correction = true at hnumber
    change Scalar.le 0 step.correction = true
    rw [hcorrection, SquareMatrix.dot_self] at hnumber ⊢
    exact Scalar.zero_le_sum_square (Scalar.isNumber_of_sum_square hnumber)

end

/-! ### Endings -/

/-- Whether a search makes another step: one is left, and the residual calls for it. -/
def Wants (c : OrbitConfig α) (p : Progress α) : Prop := p.steps < budget c ∧ above c.tolerance p.residual = true

theorem wants_start {c : OrbitConfig α} (hbudget : 1 < c.maxIterations)
    (htolerance : Scalar.isFinite c.tolerance = true) (guess : PhaseVector α) :
    Wants c { orbit := guess, correction := 0 } := by
  have hleft : 0 < budget c := by
    unfold budget
    omega
  exact ⟨hleft, htolerance⟩

/-- How a search ends where its steps have led it, when `through` takes a bunch around one turn. -/
inductive Ending (decompose : Decomposer α) (c : OrbitConfig α) (momentum : α)
    (through : Bunch α → Except Fault (Bunch α)) (p : Progress α) : Except Fault (OrbitResult α) → Prop
  | returned (ended : ¬Wants c p) (number : Scalar.isNumber p.correction = true) :
      Ending decompose c momentum through p
        (.ok ⟨p.orbit, meets c.tolerance p.residual, p.steps, p.residual, p.correction⟩)
  /-- The result is refused for its correction, never for its residual. -/
  | refused (ended : ¬Wants c p) (number : Scalar.isNumber p.correction = false) :
      Ending decompose c momentum through p
        (.error (.validation OrbitResult.form.title [⟨"correction", .greaterThanEqual⟩]))
  /-- The probe does not get around. -/
  | stopped {fault : Fault} (wanted : Wants c p)
      (turn : through ⟨momentum, 1, Newton.probe (solved c) c.delta p.orbit⟩ = .error fault)
      (tracking : fault.isTracking = true) : Ending decompose c momentum through p (.error fault)
  /-- The probe gets around, and its images make a Jacobian without a decomposition. A check sees to it that orbit and
  images are finite then. -/
  | undecomposed {b : Bunch α} {reference : PhaseVector α} {displaced : List (PhaseVector α)} (wanted : Wants c p)
      (turn : through ⟨momentum, 1, Newton.probe (solved c) c.delta p.orbit⟩ = .ok b)
      (images : b.particles = reference :: displaced)
      (matrix : decompose _ (Newton.jacobian (solved c) c.delta reference displaced) = none)
      (checked : c.checkFinite = true → p.orbit.isFinite = true ∧ b.isFinite = true) :
      Ending decompose c momentum through p (.error .noDecomposition)

/-- A step that is wanted and fails ends the search. -/
theorem ending_of_stepFrom (hturn : IsTurn c through) {p : Progress α} (hwants : Wants c p) {fault : Fault}
    (h : stepFrom decompose c momentum through p.orbit = .error fault) :
    Ending decompose c momentum through p (.error fault) := by
  rcases bind_eq_error_iff.mp h with hstopped | ⟨b, hb, hstep⟩
  · exact .stopped hwants hstopped (hturn.tracking _ fault hstopped)
  · obtain ⟨reference, displaced, hparticles, hfront⟩ := hturn.exists_images hb
    rw [hparticles] at hstep
    obtain ⟨hnone, rfl⟩ := Newton.step_cons_eq_error_iff.mp hstep
    refine .undecomposed hwants hb hparticles hnone fun hcheck => ?_
    have himages := hturn.checked hcheck hb
    have hreference : reference ∈ b.particles := hparticles ▸ List.mem_cons_self
    exact ⟨hfront .x (Bunch.isFinite_iff.mp himages reference hreference .x), himages⟩

/-- Whether a search without a further step returns depends on its last correction. -/
theorem ending_of_conclude [Scalar.Ordered α] {p : Progress α} (hended : ¬Wants c p) (hmeasured : Measured p) :
    Ending decompose c momentum through p (conclude c p) := by
  cases hnumber : Scalar.isNumber p.correction with
  | true =>
    rw [conclude_eq_ok_iff.mpr ⟨hmeasured.residual, hmeasured.correction hnumber, rfl⟩]
    exact .returned hended hnumber
  | false =>
    have hbelow : Scalar.le 0 p.correction = false := by
      by_contra hle
      rw [(Scalar.Ordered.isNumber_of_le ((Bool.not_eq_false _).mp hle)).2] at hnumber
      cases hnumber
    have hconclude :
        conclude c p = .error (.validation OrbitResult.form.title [⟨"correction", .greaterThanEqual⟩]) := by
      cases hw : p.residual with
      | none => simp [conclude, hw, hbelow]
      | some w => simp [conclude, hw, hbelow, hmeasured.residual w hw]
    rw [hconclude]
    exact .refused hended hnumber

variable [Scalar.Ordered α] [Scalar.Absorbing α] [Scalar.Cumulative α]

theorem exists_ending (hdecompose : decompose.RefusesOffDiagonal) (hturn : IsTurn c through) (momentum : α)
    (guess : PhaseVector α) :
    ∃ trail, Trail c.tolerance (stepFrom decompose c momentum through) { orbit := guess, correction := 0 } trail ∧
      Ending decompose c momentum through (trail.foldl Progress.after { orbit := guess, correction := 0 })
        (follow c.tolerance (stepFrom decompose c momentum through) (budget c) { orbit := guess, correction := 0 } >>=
          conclude c) := by
  have hsteps (trail : List (Newton.Step α)) :
      (trail.foldl Progress.after { orbit := guess, correction := 0 }).steps = trail.length :=
    (steps_foldl_after _ trail).trans (Nat.zero_add _)
  -- A search fails at the step that it could not make, and gets to its conclusion for want of steps or of a reason.
  cases hfollow : follow c.tolerance (stepFrom decompose c momentum through) (budget c)
      { orbit := guess, correction := 0 } with
  | error fault =>
    obtain ⟨trail, htrail, hlength, habove, hstep⟩ := exists_trail_of_follow_error hfollow
    have hleft := (hsteps trail).trans_lt hlength
    exact ⟨trail, htrail, ending_of_stepFrom hturn ⟨hleft, habove⟩ hstep⟩
  | ok p =>
    obtain ⟨trail, htrail, rfl, -, hend⟩ := exists_trail_of_follow hfollow
    have hmeasured := htrail.invariant (fun hmade => (measured_of_stepFrom hdecompose hturn hmade).2 _)
      ⟨nofun, fun _ => Scalar.Cumulative.zero_le_zero⟩
    refine ⟨trail, htrail, ending_of_conclude ?_ hmeasured⟩
    rintro ⟨hleft, habove⟩
    rw [hsteps] at hleft
    rcases hend with hspent | hover
    · exact absurd hspent hleft.ne
    · rw [hover] at habove
      cases habove

/-- What a search comes to, for every guess, infinite and undefined ones included, and under all settings. Its steps
are made from finite orbits only, and where they have led it, it returns a result, or has it refused for a correction
that is no number, or stops with a fault of tracking, or at a Jacobian that has no decomposition. A guess that is not
finite never gets to a first step; if one is wanted, the search stops, with a fault of tracking if the check is on. -/
theorem search_ends_in_four_ways (hdecompose : decompose.RefusesOffDiagonal) (c : OrbitConfig α) (momentum : α)
    {r : Range α} (hr : r.elements ≠ []) (guess : PhaseVector α) (s : Station α) :
    (∃ trail, Trail c.tolerance (stepAt decompose c momentum r s) { orbit := guess, correction := 0 } trail ∧
      (∀ orbit ∈ (guess :: trail.map Newton.Step.orbit).dropLast, orbit.isFinite = true) ∧
      Ending decompose c momentum ((site c r s).transport r)
        (trail.foldl Progress.after { orbit := guess, correction := 0 })
        ((find decompose c momentum r guess).run s).1) ∧
      (guess.isFinite = false → 1 < c.maxIterations → Scalar.isFinite c.tolerance = true →
        ∃ fault, ((find decompose c momentum r guess).run s).1 = .error fault ∧
          (fault.isTracking = true ∨ fault = .noDecomposition ∧ c.checkFinite = false)) := by
  have hturn := isTurn_site c hr s
  have houtcome := outcome_find_eq decompose c momentum r guess s
  obtain ⟨trail, htrail, hending⟩ := exists_ending hdecompose hturn momentum guess
  rw [stepAt] at houtcome
  rw [← houtcome] at hending
  have hstarts := htrail.forall_starts fun hmade => (measured_of_stepFrom hdecompose hturn hmade).1
  refine ⟨⟨trail, htrail, hstarts, hending⟩, fun hguess hbudget htolerance => ?_⟩
  have hwants := wants_start hbudget htolerance guess
  cases trail with
  | cons step rest =>
    -- The first step would have been made from the guess.
    have hfinite := hstarts guess (by simp)
    rw [hguess] at hfinite
    cases hfinite
  | nil =>
    generalize ((find decompose c momentum r guess).run s).1 = outcome at hending
    cases hending with
    | returned ended => exact absurd hwants ended
    | refused ended => exact absurd hwants ended
    | stopped wanted turn tracking => exact ⟨_, rfl, .inl tracking⟩
    | undecomposed wanted turn images matrix checked =>
      refine ⟨_, rfl, .inr ⟨rfl, ?_⟩⟩
      by_contra hcheck
      have hfinite : guess.isFinite = true := (checked ((Bool.not_eq_false _).mp hcheck)).1
      rw [hguess] at hfinite
      cases hfinite

end OrbitSearch

namespace DriftRing

/-- An orbit of which nothing is known. -/
def lost : PhaseVector Float := PhaseVector.fill (0 / 0)

/-- Whether an outcome is that a matrix has no decomposition. -/
def isUndecomposed {β : Type} : Except Fault β → Bool
  | .error .noDecomposition => true
  | _ => false

theorem eq_of_isUndecomposed {β : Type} {r : Except Fault β} (h : isUndecomposed r = true) :
    r = .error .noDecomposition := by
  unfold isUndecomposed at h
  split at h
  · rfl
  · cases h

theorem outcome_lost :
    ((OrbitSearch.find Jacobi.decompose config 1 ring lost).run station).1 = .error .noDecomposition :=
  eq_of_isUndecomposed (by decide +kernel)

end DriftRing

namespace OrbitSearch

open DriftRing

/-- From the lost orbit no step can be made. Which way the search stops there is up to the check. -/
theorem search_ends_in_four_ways_lost :
    Decomposer.RefusesOffDiagonal Jacobi.decompose ∧ ring.elements ≠ [] ∧
      (∃ trail,
        Trail config.tolerance (stepAt Jacobi.decompose config 1 ring station) { orbit := lost, correction := 0 }
          trail ∧
        Ending Jacobi.decompose config 1 ((site config ring station).transport ring)
          (trail.foldl Progress.after { orbit := lost, correction := 0 }) (.error .noDecomposition)) ∧
      ∃ fault, ((find Jacobi.decompose { config with checkFinite := true } 1 ring lost).run station).1 = .error fault ∧
        fault.isTracking = true := by
  have hr : ring.elements ≠ [] := List.cons_ne_nil _ _
  have hlost : lost.isFinite = false := by decide +kernel
  obtain ⟨⟨trail, htrail, -, hending⟩, -⟩ :=
    search_ends_in_four_ways Jacobi.refusesOffDiagonal_decompose config 1 hr lost station
  rw [outcome_lost] at hending
  obtain ⟨-, hstops⟩ :=
    search_ends_in_four_ways Jacobi.refusesOffDiagonal_decompose { config with checkFinite := true } 1 hr lost station
  obtain ⟨fault, hfault, htracking | ⟨-, hcheck⟩⟩ := hstops hlost (by decide) (by decide)
  · exact ⟨Jacobi.refusesOffDiagonal_decompose, hr, ⟨trail, htrail, hending⟩, fault, hfault, htracking⟩
  · cases hcheck

/-- Without a check, the lost orbit ends a search with a fault that is neither one of tracking nor one of a segment. -/
theorem lost_orbit_is_undocumented :
    config.checkFinite = false ∧ ring.elements ≠ [] ∧
      ∃ fault, ((find Jacobi.decompose config 1 ring lost).run station).1 = .error fault ∧ fault.isTracking = false ∧
        fault.isSegment = false :=
  ⟨rfl, List.cons_ne_nil _ _, .noDecomposition, outcome_lost, rfl, rfl⟩

end OrbitSearch

end BeamOptics
