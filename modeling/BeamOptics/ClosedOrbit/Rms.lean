import BeamOptics.Lattice.Model
import BeamOptics.Tracking.Tracker

/-!
# Orbit excursions

The root mean square of an orbit along a line: for each element the squared mean of the values at its two ends,
weighted by its length.
-/

namespace BeamOptics

namespace Rms

variable {α : Type} [Scalar α]

def contribution (length : α) (before after : PhaseVector α) : PhaseVector α :=
  PhaseVector.ofFn fun c => length * Scalar.square ((after.get c + before.get c) / Scalar.two)

def accumulate (t : Tracker α) : List (Element α) → PhaseVector α → PhaseVector α →
    Action Fault (Ride α) (PhaseVector α)
  | [], _, total => pure total
  | e :: rest, before, total => do
    Ride.throughElement t e
    let b ← Action.ask Ride.bunch
    let after ← Action.lift b.firstParticle
    accumulate t rest after (total + contribution e.length before after)

/-- Excursion of the orbit that starts at a vector, along the whole line, in a fresh tracker without processes. -/
def excursion (m : Model α) (config : TrackerConfig) (momentum : α) (start : PhaseVector α) :
    Action Fault (Plant α) (PhaseVector α) := do
  let line ← Action.lift m.beamline
  let length := line.totalLength
  if Scalar.le length 0 then throw (.zeroLength m.name)
  let plant ← get
  let station := ((Station.setRange line).run (Station.create config plant)).2
  let b ← Action.lift (Bunch.ofVector start momentum 1 1)
  let (result, after) := (accumulate station.tracker line.elements start 0).run ⟨b, station.plant⟩
  set after.plant
  let total ← Action.lift result
  pure (total.map fun a => Scalar.sqrt (a / length))

end Rms

end BeamOptics
