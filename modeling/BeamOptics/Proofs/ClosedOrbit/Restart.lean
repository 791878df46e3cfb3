import BeamOptics.Proofs.ClosedOrbit.Result

/-!
# Taking up a search

A step starts from an orbit and from nothing else: earlier steps and earlier searches leave no trace that it could see.
So a search that has spent its budget can be taken up where it stopped, and a larger budget makes no difference to one
that has converged.
-/

namespace BeamOptics

namespace OrbitSearch

variable {α : Type}

/-- The same progress after more steps. -/
def Progress.later (count : Nat) (p : Progress α) : Progress α := { p with steps := p.steps + count }

variable [Scalar α] {tolerance : α} {next : PhaseVector α → Except Fault (Newton.Step α)}

/-! ### Budgets -/

theorem follow_of_not_above {p : Progress α} (h : above tolerance p.residual = false) (n : Nat) :
    follow tolerance next n p = .ok p := by
  cases n with
  | zero => rfl
  | succ n => rw [follow, h, if_neg Bool.false_ne_true]

theorem follow_add (n m : Nat) (p : Progress α) :
    follow tolerance next (n + m) p = follow tolerance next n p >>= follow tolerance next m := by
  induction n generalizing p with
  | zero =>
    rw [Nat.zero_add]
    rfl
  | succ n ih =>
    cases habove : above tolerance p.residual with
    | true =>
      rw [Nat.succ_add, follow, follow, habove, if_pos rfl, if_pos rfl, bind_assoc]
      exact bind_congr fun step => ih (p.after step)
    | false =>
      rw [follow_of_not_above habove, follow_of_not_above habove]
      exact (follow_of_not_above habove m).symm

theorem follow_later (count n : Nat) (p : Progress α) :
    follow tolerance next n (p.later count) = Progress.later count <$> follow tolerance next n p := by
  induction n generalizing p with
  | zero => rfl
  | succ n ih =>
    have hafter (step : Newton.Step α) : (p.later count).after step = (p.after step).later count :=
      congrArg (Progress.mk step.orbit (some step.residual) step.correction) (Nat.add_right_comm _ _ _)
    have hresidual : (p.later count).residual = p.residual := rfl
    rw [follow, follow, hresidual]
    split
    · rw [map_bind]
      refine bind_congr fun step => ?_
      rw [hafter, ih]
    · rfl

/-- Going on from where steps have led is beginning there, but for the count of the steps. -/
theorem follow_of_above {p : Progress α} (hfinite : Scalar.isFinite tolerance = true)
    (habove : above tolerance p.residual = true) (n : Nat) :
    follow tolerance next (n + 1) p =
      Progress.later p.steps <$> follow tolerance next (n + 1) { orbit := p.orbit, correction := 0 } := by
  have hfresh : above tolerance (none : Option α) = true := hfinite
  -- both make the first step, and behind it they differ in the count alone
  rw [follow, follow, if_pos habove, if_pos hfresh, map_bind]
  refine bind_congr fun step => ?_
  rw [← follow_later]
  have hsteps : p.steps + 1 = 0 + 1 + p.steps := by omega
  exact congrArg (fun steps => follow tolerance next n ⟨step.orbit, some step.residual, step.correction, steps⟩) hsteps

/-! ### Ends -/

variable {c : OrbitConfig α}

def later (count : Int) (result : OrbitResult α) : OrbitResult α :=
  { result with iterations := count + result.iterations }

theorem conclude_later (count : Nat) (p : Progress α) : conclude c (p.later count) = later count <$> conclude c p := by
  obtain ⟨orbit, residual, correction, steps⟩ := p
  have hsteps : ((steps + count : Nat) : Int) = count + steps := by omega
  have hok (r : OrbitResult α) : later count <$> (.ok r : Except Fault _) = .ok (later count r) := rfl
  have herror (fault : Fault) : later count <$> (.error fault : Except Fault (OrbitResult α)) = .error fault := rfl
  cases residual with
  | none => cases hcorrection : Scalar.le 0 correction <;>
      simp [conclude, Progress.later, later, hcorrection, hsteps, hok, herror]
  | some w => cases hw : Scalar.le 0 w <;> cases hcorrection : Scalar.le 0 correction <;>
      simp [conclude, Progress.later, later, hw, hcorrection, hsteps, hok, herror]

variable [Scalar.Ordered α]

theorem not_above_of_meets {residual : Option α} (h : meets tolerance residual = true) :
    above tolerance residual = false := by
  cases residual with
  | none => exact (Bool.not_eq_true' _).mp h
  | some w =>
    obtain ⟨hw, htolerance⟩ := Scalar.Ordered.isNumber_of_le (show Scalar.le w tolerance = true from h)
    rw [above, Scalar.Ordered.lt_eq_not_le htolerance hw, show Scalar.le w tolerance = true from h]
    rfl

/-- A search that returns without having converged has a finite tolerance that its residual is above. -/
theorem above_of_unconverged {n : Nat} {orbit : PhaseVector α} {p : Progress α} {result : OrbitResult α}
    (hfollow : follow c.tolerance next n { orbit := orbit, correction := 0 } = .ok p)
    (hconclude : conclude c p = .ok result) (hunconverged : result.converged = false) :
    Scalar.isFinite c.tolerance = true ∧ above c.tolerance p.residual = true := by
  obtain ⟨hresidual, -, rfl⟩ := conclude_eq_ok_iff.mp hconclude
  change meets c.tolerance p.residual = false at hunconverged
  have hfinite : Scalar.isFinite c.tolerance = true := by
    by_contra hinfinite
    have hfresh : above c.tolerance (none : Option α) = false := by simpa [above] using hinfinite
    rw [follow_of_not_above hfresh] at hfollow
    obtain rfl := Except.ok.inj hfollow
    exact hinfinite ((Bool.not_eq_false' _).mp hunconverged)
  have hnumber (w : α) (hw : p.residual = some w) : Scalar.isNumber w = true :=
    (Scalar.Ordered.isNumber_of_le (hresidual w hw)).2
  refine ⟨hfinite, ?_⟩
  by_contra habove
  rw [meets_of_not_above hfinite hnumber ((Bool.not_eq_true _).mp habove)] at hunconverged
  cases hunconverged

/-! ### Stations of searches -/

omit [Scalar.Ordered α]

/-- The stations to which searches lead from a station, whatever they search and however they end. -/
inductive Searched (s : Station α) : Station α → Prop
  | start : Searched s s
  | search {t : Station α} (h : Searched s t) (decompose : Decomposer α) (c : OrbitConfig α) (momentum : α)
      (r : Range α) (guess : PhaseVector α) : Searched s ((find decompose c momentum r guess).run t).2

theorem Searched.regime_and_holds {s t : Station α} (h : Searched s t)
    (hholds : s.plant.Holds s.tracker.processes) :
    t.regime = s.regime ∧ t.plant.Holds t.tracker.processes := by
  induction h with
  | start => exact ⟨rfl, hholds⟩
  | @search t h decompose c momentum r guess ih =>
    obtain ⟨hregime, hheld⟩ := ih
    obtain ⟨hplant, -⟩ := leaves_find decompose c momentum r guess t
    refine ⟨(keeps_regime_find decompose c momentum r guess t).trans hregime, ?_⟩
    rw [tracker_find decompose c momentum r guess hheld]
    exact hheld.of_fixtures (Plant.fixtures_of_apart hplant)

theorem regime_site (c : OrbitConfig α) (r : Range α) {s : Station α} (hholds : s.plant.Holds s.tracker.processes) :
    (site c r s).regime = (s.regime.1, s.regime.2 ++ transients c) := by
  have hset : ((Station.setRange r).run s).2.regime = s.regime := Station.keeps_setRange Station.steady_regime r s
  have hunlogged : ((Station.setRange r).run s).2.plant.unlogged = s.plant.unlogged := s.plant.unlogged_note _
  have hsetHolds : ((Station.setRange r).run s).2.plant.Holds s.tracker.processes :=
    hholds.of_fixtures (Plant.fixtures_of_unlogged hunlogged)
  rw [site, regime_equipped_of_holds (transients c) hsetHolds, hset]

theorem transport_site_of_searched (c : OrbitConfig α) (r : Range α) {s t : Station α} (h : Searched s t)
    (hholds : s.plant.Holds s.tracker.processes) : (site c r t).transport = (site c r s).transport := by
  obtain ⟨hregime, hheld⟩ := h.regime_and_holds hholds
  apply Station.transport_of_regime
  rw [regime_site c r hheld, regime_site c r hholds, hregime]

theorem keeps_surroundings_advances (decompose : Decomposer α) (c : OrbitConfig α) (momentum : α) (n : Nat)
    (p : Progress α) : (advances decompose c momentum n p).Keeps Station.surroundings := by
  induction n generalizing p with
  | zero => exact Action.keeps_pure _
  | succ n ih => exact (keeps_surroundings_advance decompose c momentum p).bind fun p => ih p

/-- A step makes the same of an orbit after other steps and other searches as it makes of it at once. -/
theorem outcome_advance_of_searched (decompose : Decomposer α) (c : OrbitConfig α) (momentum : α) (r : Range α)
    {s t : Station α} (h : Searched s t) (hholds : s.plant.Holds s.tracker.processes) (n : Nat) (p q : Progress α) :
    ((advance decompose c momentum p).run ((advances decompose c momentum n q).run (site c r t)).2).1 =
      p.after <$> stepAt decompose c momentum r s p.orbit := by
  have hkeeps := keeps_surroundings_advances decompose c momentum n q (site c r t)
  have hrange : ((advances decompose c momentum n q).run (site c r t)).2.tracker.range = some r := by
    rw [Station.tracker_of_surroundings hkeeps, range_site]
  rw [outcome_advance decompose c momentum hrange, Station.transport_of_surroundings hkeeps,
    transport_site_of_searched c r h hholds]
  rfl

/-- A probe that has been around can be set back for any step: tracking keeps its charge. -/
theorem setBack_of_transport {s : Station α} {r : Range α} {used used' : Bunch α}
    (h : s.transport r used = .ok used') (hcharge : used.charge = 1) (c : OrbitConfig α) (momentum : α)
    (orbit : PhaseVector α) :
    setBack c momentum orbit used' = ⟨momentum, 1, Newton.probe (solved c) c.delta orbit⟩ := by
  have hkept : used'.charge = used.charge := Range.view_transport Bunch.steady_charge h
  exact setBack_eq (hkept.trans hcharge) c momentum orbit

/-! ### Searches in parts -/

abbrev withBudget (c : OrbitConfig α) (maxIterations : Int) : OrbitConfig α := { c with maxIterations }

omit [Scalar α] in
theorem budget_withBudget (c : OrbitConfig α) (n : Nat) : budget (withBudget c (n + 1)) = n := by
  change ((n : Int) + 1 - 1).toNat = n
  omega

theorem outcome_find_of_searched (decompose : Decomposer α) (c : OrbitConfig α) (momentum : α) (r : Range α)
    (guess : PhaseVector α) {s t : Station α} (h : Searched s t) (hholds : s.plant.Holds s.tracker.processes)
    (n : Nat) :
    ((find decompose (withBudget c (n + 1)) momentum r guess).run t).1 =
      follow c.tolerance (stepAt decompose c momentum r s) n { orbit := guess, correction := 0 } >>= conclude c := by
  rw [outcome_find_eq, budget_withBudget, stepAt, transport_site_of_searched _ r h hholds]
  rfl

variable [Scalar.Ordered α]

theorem find_taken_up {decompose : Decomposer α} {momentum : α} {r : Range α} {guess : PhaseVector α}
    {s : Station α} (hholds : s.plant.Holds s.tracker.processes) {j k : Nat} (hk : 1 ≤ k) {first : OrbitResult α}
    (hfirst : ((find decompose (withBudget c (j + 1)) momentum r guess).run s).1 = .ok first)
    (hunconverged : first.converged = false) {t t' : Station α} (ht : Searched s t) (ht' : Searched s t') :
    ((find decompose (withBudget c ((j + k : Nat) + 1)) momentum r guess).run t).1 =
      later first.iterations <$> ((find decompose (withBudget c (k + 1)) momentum r first.orbit).run t').1 := by
  rw [outcome_find_of_searched decompose c momentum r guess .start hholds] at hfirst
  obtain ⟨p, hfollow, hconclude⟩ := bind_eq_ok_iff.mp hfirst
  obtain ⟨hfinite, habove⟩ := above_of_unconverged hfollow hconclude hunconverged
  obtain ⟨-, -, rfl⟩ := conclude_eq_ok_iff.mp hconclude
  obtain ⟨k, rfl⟩ : ∃ m, k = m + 1 := ⟨k - 1, by omega⟩
  rw [outcome_find_of_searched decompose c momentum r guess ht hholds,
    outcome_find_of_searched decompose c momentum r p.orbit ht' hholds, follow_add, hfollow]
  change follow _ _ (k + 1) p >>= _ = _
  rw [follow_of_above hfinite habove, bind_map_left, map_bind]
  exact bind_congr fun q => conclude_later p.steps q

theorem find_of_converged {decompose : Decomposer α} {momentum : α} {r : Range α} {guess : PhaseVector α}
    {s : Station α} (hholds : s.plant.Holds s.tracker.processes) {j k : Nat} {first : OrbitResult α}
    (hfirst : ((find decompose (withBudget c (j + 1)) momentum r guess).run s).1 = .ok first)
    (hconverged : first.converged = true) {t : Station α} (ht : Searched s t) :
    ((find decompose (withBudget c ((j + k : Nat) + 1)) momentum r guess).run t).1 = .ok first := by
  rw [outcome_find_of_searched decompose c momentum r guess .start hholds] at hfirst
  obtain ⟨p, hfollow, hconclude⟩ := bind_eq_ok_iff.mp hfirst
  have hmet : above c.tolerance p.residual = false := by
    obtain ⟨-, -, rfl⟩ := conclude_eq_ok_iff.mp hconclude
    exact not_above_of_meets hconverged
  rw [outcome_find_of_searched decompose c momentum r guess ht hholds, follow_add, hfollow]
  change follow _ _ k p >>= _ = _
  rw [follow_of_not_above hmet]
  exact hconclude

/-- Searches in parts. The probe of a step is reset as a whole, so that a step depends on its orbit alone. A search
that has not converged can be taken up from the orbit it returned, with the steps added up. One that has converged has
the same result under every larger budget. -/
theorem search_in_parts {s : Station α} (hholds : s.plant.Holds s.tracker.processes) (decompose : Decomposer α)
    (c : OrbitConfig α) (momentum : α) (r : Range α) :
    (∀ used used' : Bunch α, (site c r s).transport r used = .ok used' → used.charge = 1 →
      ∀ orbit, { used' with momentum, particles := Newton.probe (solved c) c.delta orbit } =
        (⟨momentum, 1, Newton.probe (solved c) c.delta orbit⟩ : Bunch α)) ∧
      (∀ t, Searched s t → ∀ (n : Nat) (p q : Progress α),
        ((advance decompose c momentum p).run ((advances decompose c momentum n q).run (site c r t)).2).1 =
          p.after <$> stepAt decompose c momentum r s p.orbit) ∧
      ∀ (guess : PhaseVector α) (j k : Nat) (first : OrbitResult α),
        ((find decompose (withBudget c (j + 1)) momentum r guess).run s).1 = .ok first →
        ∀ t, Searched s t →
        (first.converged = false → 1 ≤ k → ∀ t', Searched s t' →
          ((find decompose (withBudget c ((j + k : Nat) + 1)) momentum r guess).run t).1 =
            later first.iterations <$>
              ((find decompose (withBudget c (k + 1)) momentum r first.orbit).run t').1) ∧
        (first.converged = true →
          ((find decompose (withBudget c ((j + k : Nat) + 1)) momentum r guess).run t).1 = .ok first) := by
  refine ⟨?_, ?_, ?_⟩
  · intro used used' htransport hcharge orbit
    exact setBack_of_transport htransport hcharge c momentum orbit
  · intro t ht n p q
    exact outcome_advance_of_searched decompose c momentum r ht hholds n p q
  · intro guess j k first hfirst t ht
    refine ⟨?_, fun hconverged => find_of_converged hholds hfirst hconverged ht⟩
    intro hunconverged hk t' ht'
    exact find_taken_up hholds hk hfirst hunconverged ht ht'

end OrbitSearch

namespace DriftRing

/-- A tracker with one check attached twice. -/
def guarded : Station Float := ⟨{ processes := [0, 0] }, { processes := Table.empty.insert 0 (.finiteness false) }⟩

/-- How a search in a budget of one step ends that starts at a guess. -/
def oneStep (guess : PhaseVector Float) : Except Fault (OrbitResult Float) × Station Float :=
  (OrbitSearch.find blind (OrbitSearch.withBudget config 2) 1 ring guess).run guarded

end DriftRing

namespace OrbitSearch

open DriftRing in
theorem search_in_parts_slanted :
    guarded.plant.Holds guarded.tracker.processes ∧
      (∃ first, (oneStep slanted).1 = .ok first ∧ first.converged = false ∧
        ((find blind (withBudget config 3) 1 ring slanted).run guarded).1 =
          later first.iterations <$>
            ((find blind (withBudget config 2) 1 ring first.orbit).run (oneStep slanted).2).1) ∧
      ∃ first, (oneStep 0).1 = .ok first ∧ first.converged = true ∧
        ((find blind (withBudget config 3) 1 ring 0).run guarded).1 = .ok first := by
  have hholds : guarded.plant.Holds guarded.tracker.processes := by
    intro number hnumber
    obtain rfl : number = 0 := by simpa [guarded] using hnumber
    exact ⟨_, rfl⟩
  obtain ⟨-, -, hparts⟩ := search_in_parts hholds blind config 1 ring
  have hnext : Searched guarded (oneStep slanted).2 := .search .start blind (withBudget config 2) 1 ring slanted
  obtain ⟨first, hfirst, hends⟩ := exists_ok_of_any
    (show (oneStep slanted).1.toOption.any (!·.converged) = true by decide +kernel)
  obtain ⟨closed, hclosed, hconverged⟩ := exists_ok_of_any
    (show (oneStep 0).1.toOption.any (·.converged) = true by decide +kernel)
  have hunconverged : first.converged = false := (Bool.not_eq_true' _).mp hends
  refine ⟨hholds, ⟨first, hfirst, hunconverged, ?_⟩, closed, hclosed, hconverged, ?_⟩
  · exact (hparts slanted 1 1 first hfirst guarded .start).1 hunconverged (Nat.le_refl 1) _ hnext
  · exact (hparts 0 1 1 closed hclosed guarded .start).2 hconverged

end OrbitSearch

end BeamOptics
