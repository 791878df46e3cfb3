import BeamOptics.Tracking.Tracker

/-!
# Stepping

Going through the active range element by element with a shared bunch. A step that fails leaves the cursor where
it was.
-/

namespace BeamOptics

namespace Tracker

variable {α : Type}

def current (t : Tracker α) : Except Fault (Element α) :=
  match t.stepper, t.range with
  | some stepper, some r =>
    match r.at? stepper.index with
    | some e => .ok e
    | none => .error .stepperPastEnd
  | _, _ => .error .stepperIdle

def steppedBunch (t : Tracker α) : Except Fault Nat :=
  match t.stepper with
  | some stepper => .ok stepper.bunch
  | none => .error .stepperIdle

def advance (t : Tracker α) : Tracker α :=
  { t with stepper := t.stepper.map fun stepper => { stepper with index := stepper.index + 1 } }

def hasNext (t : Tracker α) : Bool :=
  match t.stepper, t.range with
  | some stepper, some r => stepper.index ≤ r.last
  | _, _ => false

end Tracker

namespace Station

variable {α : Type}

def initStepper (bunch : Nat) : Action Fault (Station α) Unit := do
  let s ← get
  let r ← Action.lift s.tracker.requireRange
  onTracker (Action.update fun t => { t with stepper := some ⟨bunch, r.first⟩ })

variable [Scalar α]

/-- Takes a shared bunch on a ride and puts it back as far as it got. -/
def rideShared {β : Type} (number : Nat) (a : Tracker α → Action Fault (Ride α) β) :
    Action Fault (Station α) β := do
  let s ← get
  match s.plant.bunches.get? number with
  | none => throw .stepperIdle
  | some load =>
    let b ← Action.lift load.bunch
    let (result, b) ← ride b a
    onPlant (Action.update fun p => { p with bunches := p.bunches.insert number (.table b) })
    Action.lift result

/-- Passes the current element; true as long as another one follows. -/
def step : Action Fault (Station α) Bool := do
  let s ← get
  let e ← Action.lift s.tracker.current
  let bunch ← Action.lift s.tracker.steppedBunch
  rideShared bunch fun t => Ride.throughElement t e
  onTracker (Action.update Tracker.advance)
  Action.ask fun s => s.tracker.hasNext

end Station

end BeamOptics
