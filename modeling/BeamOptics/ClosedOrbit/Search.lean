import BeamOptics.ClosedOrbit.Newton
import BeamOptics.Lattice.Bounds
import BeamOptics.Settings.Orbit
import BeamOptics.Tracking.Tracker

/-!
# Closed-orbit search

Newton steps until the squared residual meets the tolerance or the budget of steps is spent. The processes that the
settings call for are attached for the time of the search only.
-/

namespace BeamOptics

namespace OrbitSearch

variable {α : Type}

structure Progress (α : Type) where
  orbit : PhaseVector α
  residual : Option α := none
  correction : α
  steps : Nat := 0

variable [Scalar α]

/-- Processes that the settings call for. -/
def transients (c : OrbitConfig α) : List (BeamProcess α) :=
  let radiation :=
    if c.radiation then
      let fixed : Radiation α := ⟨max 1 c.radiationSteps.toNat, 0, false⟩
      [.radiation (if Scalar.lt 0 c.radiationStepSize then fixed.limitedStep c.radiationStepSize else fixed)]
    else []
  let scaling := if Scalar.beq c.bendScale 0 then [] else [.ringDelta c.bendScale]
  let check := if c.checkFinite then [.finiteness true] else []
  radiation ++ scaling ++ check

/-- Whether another step is wanted: the residual is above the tolerance. -/
def above (tolerance : α) : Option α → Bool
  | none => Scalar.isFinite tolerance
  | some r => Scalar.lt tolerance r

def meets (tolerance : α) : Option α → Bool
  | none => !Scalar.isFinite tolerance
  | some r => Scalar.le r tolerance

/-- Sends the probe of a step around, and gives the images of its particles. -/
def turn (c : OrbitConfig α) (momentum : α) (orbit : PhaseVector α) :
    Action Fault (Station α) (List (PhaseVector α)) := do
  let probe := Newton.probe (Newton.coordinates c.transverseOnly) c.delta orbit
  let (result, b) ← Station.trackBunch ⟨momentum, 1, probe⟩
  Action.lift result
  pure b.particles

/-- A bunch that has been around, set back to be the probe of a step. Its charge is left alone. -/
def setBack (c : OrbitConfig α) (momentum : α) (orbit : PhaseVector α) (used : Bunch α) : Bunch α :=
  { used with momentum, particles := Newton.probe (Newton.coordinates c.transverseOnly) c.delta orbit }

/-- Setting one probe back before each step comes to the same as sending around a new one, as `turn` does. -/
theorem setBack_eq {used : Bunch α} (h : used.charge = 1) (c : OrbitConfig α) (momentum : α) (orbit : PhaseVector α) :
    setBack c momentum orbit used =
      ⟨momentum, 1, Newton.probe (Newton.coordinates c.transverseOnly) c.delta orbit⟩ := by
  rw [setBack, h]

def advance (decompose : Decomposer α) (c : OrbitConfig α) (momentum : α) (p : Progress α) :
    Action Fault (Station α) (Progress α) := do
  let images ← turn c momentum p.orbit
  let step ← Action.lift
    (Newton.step decompose (Newton.coordinates c.transverseOnly) c.delta c.svdThreshold p.orbit images)
  let steps := p.steps + 1
  Station.onPlant (Action.update fun plant => plant.note (.orbit (.iteration steps step.residual)))
  pure ⟨step.orbit, some step.residual, step.correction, steps⟩

def iterate (decompose : Decomposer α) (c : OrbitConfig α) (momentum : α) :
    Nat → Progress α → Action Fault (Station α) (Progress α)
  | 0, p => pure p
  | budget + 1, p =>
    if above c.tolerance p.residual then do
      let p ← advance decompose c momentum p
      iterate decompose c momentum budget p
    else pure p

def budget (c : OrbitConfig α) : Nat := (c.maxIterations - 1).toNat

/-- Runs a body with extra processes in the plant and attached, and removes them however it ends. -/
def withProcesses {β : Type} (processes : List (BeamProcess α)) (body : Action Fault (Station α) β) :
    Action Fault (Station α) β := do
  let s ← get
  let start := s.plant.processes.fresh
  let numbered := processes.zipIdx start
  Station.onPlant (Action.update fun p =>
    { p with processes := numbered.foldl (fun t item => t.insert item.2 item.1) p.processes })
  let result ← (Station.attached (numbered.map Prod.snd) body).outcome
  Station.onPlant (Action.update fun p =>
    { p with processes := numbered.foldl (fun t item => t.erase item.2) p.processes })
  Action.lift result

/-- The result of a search. A residual or correction that is no number of at least zero is refused. -/
def conclude (c : OrbitConfig α) (p : Progress α) : Except Fault (OrbitResult α) :=
  let residual := match p.residual with
    | some r => if Scalar.le 0 r then [] else [⟨"residual", .greaterThanEqual⟩]
    | none => []
  let correction := if Scalar.le 0 p.correction then [] else [⟨"correction", .greaterThanEqual⟩]
  match residual ++ correction with
  | [] => .ok ⟨p.orbit, meets c.tolerance p.residual, p.steps, p.residual, p.correction⟩
  | issues => .error (.validation OrbitResult.form.title issues)

def find (decompose : Decomposer α) (c : OrbitConfig α) (momentum : α) (r : Range α) (guess : PhaseVector α) :
    Action Fault (Station α) (OrbitResult α) := do
  Station.setRange r
  let p ← withProcesses (transients c) (iterate decompose c momentum (budget c) { orbit := guess, correction := 0 })
  let result ← Action.lift (conclude c p)
  let note : OrbitNote α :=
    if result.converged then .converged p.steps p.residual else .notConverged p.steps p.residual
  Station.onPlant (Action.update fun plant => plant.note (.orbit note))
  pure result

end OrbitSearch

end BeamOptics
