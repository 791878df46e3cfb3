import BeamOptics.Proofs.ClosedOrbit.Frame

/-!
# The place of a search

A search makes its steps at a station of its own: on the range it was given, with the processes that its settings call
for attached behind those of the tracker.
-/

namespace BeamOptics

namespace OrbitSearch

variable {α : Type} [Scalar α]

abbrev solved (c : OrbitConfig α) : List Coordinate := Newton.coordinates c.transverseOnly

/-- Where the steps of a search are made: on its range, with its processes attached. -/
def site (c : OrbitConfig α) (r : Range α) (s : Station α) : Station α :=
  equipped (transients c) ((Station.setRange r).run s).2

theorem range_site (c : OrbitConfig α) (r : Range α) (s : Station α) : (site c r s).tracker.range = some r := by
  rw [site, (equipped_eq _ _).2]
  rfl

theorem mem_site {c : OrbitConfig α} {r : Range α} {s : Station α} {p : BeamProcess α}
    (h : p ∈ (site c r s).regime.2) : p ∈ s.plant.processesOf s.tracker.processes ∨ p ∈ transients c := by
  have hregime : ((Station.setRange r).run s).2.regime = s.regime := Station.keeps_setRange Station.steady_regime r s
  rcases mem_equipped h with hattached | htransient
  · rw [hregime] at hattached
    exact .inl hattached
  · exact .inr htransient

theorem outcome_find (decompose : Decomposer α) (c : OrbitConfig α) (momentum : α) (r : Range α)
    (guess : PhaseVector α) (s : Station α) :
    ((find decompose c momentum r guess).run s).1 = (do
      let p ← ((iterate decompose c momentum (budget c) { orbit := guess, correction := 0 }).run (site c r s)).1
      conclude c p) := by
  have hconclude (p : Progress α) (s' : Station α) :
      ((do
        let result ← Action.lift (conclude c p)
        let note : OrbitNote α :=
          if result.converged then .converged p.steps p.residual else .notConverged p.steps p.residual
        Station.onPlant (Action.update fun plant => plant.note (.orbit note))
        pure result : Action Fault (Station α) (OrbitResult α)).run s').1 = conclude c p := by
    rw [Action.fst_run_lift_bind]
    cases conclude c p <;> rfl
  have hrange : (Station.setRange r).run s = (.ok (), ((Station.setRange r).run s).2) := rfl
  rw [find, Action.run_bind_of_ok hrange, Action.fst_run_bind, outcome_withProcesses, site]
  exact bind_congr fun p => hconclude p _

/-- A number of steps, whatever their residuals. -/
def advances (decompose : Decomposer α) (c : OrbitConfig α) (momentum : α) :
    Nat → Progress α → Action Fault (Station α) (Progress α)
  | 0, p => pure p
  | n + 1, p => do
    let p ← advance decompose c momentum p
    advances decompose c momentum n p

end OrbitSearch

end BeamOptics
