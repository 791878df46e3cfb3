import BeamOptics.Settings.Tracker
import BeamOptics.Tracking.Pass
import BeamOptics.Tracking.Plant

/-!
# Trackers

A tracker has an active range, an initial bunch, attached processes, observers, and a stepper for going through the
range element by element. Tracking a bunch tells the observers of a start, and of a completion or an error.
-/

namespace BeamOptics

/-- A bunch to track copies of: a tracker's own, or one that is shared under a number. -/
inductive InitialBunch (α : Type) where
  | own (load : Load α)
  | shared (number : Nat)

/-- A shared bunch on its way through a range, and the index of the next element. -/
structure Stepper where
  bunch : Nat
  index : Nat
  deriving DecidableEq, Repr

structure Tracker (α : Type) where
  config : TrackerConfig := { }
  range : Option (Range α) := none
  initial : Option (InitialBunch α) := none
  /-- Numbers of the attached processes, in the order of attachment. -/
  processes : List Nat := []
  stepper : Option Stepper := none
  observers : List Observer := []

structure Ride (α : Type) where
  bunch : Bunch α
  plant : Plant α

structure Station (α : Type) where
  tracker : Tracker α
  plant : Plant α

namespace Tracker

variable {α : Type}

def name (t : Tracker α) : String := t.config.name

def label (t : Tracker α) : String := s!"LinearTracker(name='{t.name}', processes={t.processes.length})"

def requireRange (t : Tracker α) : Except Fault (Range α) :=
  match t.range with
  | some r => .ok r
  | none => .error (.noRange t.name)

end Tracker

namespace Ride

variable {α : Type} [Scalar α]

def onPass {ε β : Type} (a : Action ε (Pass α) β) : Action ε (Ride α) β :=
  a.focus (fun ride => ⟨ride.bunch, ride.plant.signals⟩) fun pass ride =>
    { ride with bunch := pass.bunch, plant := { ride.plant with signals := pass.signals } }

def tellAll (t : Tracker α) (event : Ride α → Event α) : Action Fault (Ride α) Unit :=
  Action.update fun ride => { ride with plant := ride.plant.tellAll t.name t.observers (event ride) }

def noteAll (notes : List (Note α)) : Action Fault (Ride α) Unit :=
  Action.update fun ride => { ride with plant := ride.plant.noteAll notes }

def throughElement (t : Tracker α) (e : Element α) : Action Fault (Ride α) Unit := do
  let processes ← Action.ask fun ride => ride.plant.processesOf t.processes
  match ← (onPass (Pass.throughElement processes e)).outcome with
  | .ok () => pure ()
  | .error fault =>
    noteAll fault.notes
    throw fault

/-- Tracks the bunch through the active range. Faults of the simulation come out as they are, all others with the
index of the element where tracking stopped. -/
def track (t : Tracker α) : Action Fault (Ride α) Unit := do
  let r ← Action.lift t.requireRange
  let journey : Journey ← Action.ask fun ride => ⟨t.name, r.span, ride.bunch.size⟩
  tellAll t fun _ => .start journey
  let processes ← Action.ask fun ride => ride.plant.processesOf t.processes
  match ← (onPass (Pass.throughLine processes r.first r.elements)).outcome with
  | .ok () => tellAll t fun ride => .complete journey ride.bunch.momentum
  | .error (index, fault) =>
    noteAll fault.notes
    tellAll t fun _ => .error journey index fault
    throw (if fault.isSimulation then fault else .failedAt index fault)

end Ride

namespace Station

variable {α : Type}

def onTracker {β : Type} (a : Action Fault (Tracker α) β) : Action Fault (Station α) β :=
  a.focus (·.tracker) fun tracker s => { s with tracker }

def onPlant {β : Type} (a : Action Fault (Plant α) β) : Action Fault (Station α) β :=
  a.focus (·.plant) fun plant s => { s with plant }

def note (n : TrackerNote) : Action Fault (Station α) Unit :=
  Action.update fun s => { s with plant := s.plant.note (.tracker s.tracker.name n) }

/-- A new tracker sets the log level of its name and starts with a logging observer. -/
def create (config : TrackerConfig) (plant : Plant α) : Station α :=
  let plant := { plant with levels := plant.levels.insert config.name config.level }
  { tracker := { config, observers := [.logger] }
    plant := plant.note (.tracker config.name (.observerAdded Observer.logger.name)) }

/-- Sets the active range and clears the stepper. -/
def setRange (r : Range α) : Action Fault (Station α) Unit := do
  onTracker (Action.update fun t => { t with range := some r, stepper := none })
  note (.rangeSet r.span)

def setInitial (initial : InitialBunch α) : Action Fault (Station α) Unit :=
  onTracker (Action.update fun t => { t with initial := some initial })

def attach (number : Nat) : Action Fault (Station α) Unit := do
  onTracker (Action.update fun t => { t with processes := t.processes ++ [number] })
  let label ← Action.ask fun s => s.plant.processLabel number
  note (.processAdded label)

/-- Detaches the first attachment of a process, if there is one. -/
def detach (number : Nat) : Action Fault (Station α) Unit := do
  let s ← get
  let label := s.plant.processLabel number
  if s.tracker.processes.contains number then
    onTracker (Action.update fun t => { t with processes := t.processes.erase number })
    note (.processRemoved label)
  else note (.processNotAttached label)

def attachAll : List Nat → Action Fault (Station α) Unit
  | [] => pure ()
  | number :: rest => do
    attach number
    attachAll rest

def detachAll : List Nat → Action Fault (Station α) Unit
  | [] => pure ()
  | number :: rest => do
    detach number
    detachAll rest

/-- Attaches processes for the time of a body, and detaches them however the body ends. -/
def attached {β : Type} (numbers : List Nat) (body : Action Fault (Station α) β) : Action Fault (Station α) β := do
  attachAll numbers
  let result ← body.outcome
  detachAll numbers
  Action.lift result

def addObserver (o : Observer) : Action Fault (Station α) Unit := do
  onTracker (Action.update fun t => { t with observers := t.observers ++ [o] })
  note (.observerAdded o.name)

def removeObserver (o : Observer) : Action Fault (Station α) Unit := do
  let s ← get
  if s.tracker.observers.contains o then
    onTracker (Action.update fun t => { t with observers := t.observers.erase o })
    note (.observerRemoved o.name)

variable [Scalar α]

def ride {β : Type} (b : Bunch α) (a : Tracker α → Action Fault (Ride α) β) :
    Action Fault (Station α) (Except Fault β × Bunch α) := fun s =>
  let (result, after) := (a s.tracker).run ⟨b, s.plant⟩
  (.ok (result, after.bunch), { s with plant := after.plant })

def trackBunch (b : Bunch α) : Action Fault (Station α) (Except Fault Unit × Bunch α) := ride b Ride.track

def trackCopy : Action Fault (Station α) (Bunch α) := do
  let s ← get
  let load ←
    match s.tracker.initial with
    | none => throw (.noInitialBunch s.tracker.name)
    | some (.own load) => pure load
    | some (.shared number) =>
      match s.plant.bunches.get? number with
      | some load => pure load
      | none => throw (.noInitialBunch s.tracker.name)
  let load ← Action.lift load.copy
  let b ← Action.lift load.bunch
  let (result, b) ← trackBunch b
  Action.lift result
  pure b

end Station

end BeamOptics
