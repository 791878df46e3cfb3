import BeamOptics.Session.Beam
import BeamOptics.Tracking.Stepper

/-!
# Processes, trackers and observers in a session
-/

namespace BeamOptics

/-- A process as it is given. The count of steps is a value that is still to be checked. -/
inductive ProcessDraft where
  | radiation (steps : Datum) (maxStep : Float) (rereference : Bool)
  | ringDelta (scale : Float)
  | finiteness (detailed : Bool)

def ProcessDraft.build : ProcessDraft → Except Fault (BeamProcess Float)
  | radiation steps maxStep rereference => (Radiation.build steps maxStep rereference).map .radiation
  | ringDelta scale => .ok (.ringDelta scale)
  | finiteness detailed => .ok (.finiteness detailed)

inductive ObserverKind
  | recording | broken
  deriving DecidableEq, Repr

namespace Session

def processNumber : String → Work Nat := pick Handle.process?

def process (number : Nat) : Work (BeamProcess Float) := entry (·.plant.processes) number

def putProcess (number : Nat) (p : BeamProcess Float) : Work Unit :=
  modify fun s => { s with plant := { s.plant with processes := s.plant.processes.insert number p } }

def createProcess (as : Option String) (draft : ProcessDraft) : Work (BeamProcess Float) := do
  let p ← Action.lift draft.build
  let number ← Action.ask fun s => s.plant.processes.fresh
  putProcess number p
  bindIf as (.process number)
  pure p

def changeProcess (on : String) (f : BeamProcess Float → Except Fault (BeamProcess Float)) :
    Work (BeamProcess Float) := do
  let number ← processNumber on
  let p ← process number
  let p ← Action.lift (f p)
  putProcess number p
  pure p

def setRadiationSteps (on : String) (steps : Datum) : Work (BeamProcess Float) :=
  changeProcess on fun
    | .radiation r => (r.setSteps steps).map .radiation
    | _ => .error (.wrongObject on)

def setRadiationStepSize (on : String) (size : Float) : Work (BeamProcess Float) :=
  changeProcess on fun
    | .radiation r => (r.setMaxStep size).map .radiation
    | _ => .error (.wrongObject on)

def setScale (on : String) (scale : Float) : Work (BeamProcess Float) :=
  changeProcess on fun
    | .ringDelta _ => .ok (.ringDelta scale)
    | _ => .error (.wrongObject on)

def requestedSteps (on elementName : String) : Work Nat := do
  let number ← processNumber on
  let p ← process number
  let e ← element elementName
  Action.lift (p.requestedSteps e)

def applyProcess (on bunchName elementName : String) (ds : Float) : Work (Load Float) := do
  let number ← processNumber on
  let p ← process number
  let bunchNumber ← bunchNumber bunchName
  let e ← element elementName
  let l ← load bunchNumber
  let b ← Action.lift l.bunch
  match p.act e ds b with
  | .ok b => do
    putBunch bunchNumber (.table b)
    pure (.table b)
  | .error fault => do
    onPlant (Action.update fun plant => plant.noteAll fault.notes)
    throw fault

def trackerNumber : String → Work Nat := pick Handle.tracker?

def tracker (name : String) : Work (Tracker Float) := do
  let number ← trackerNumber name
  entry trackers number

def createTracker (as : Option String) (d : Option Datum) : Work TrackerConfig := do
  let config ← match d with
    | some d => Action.lift (TrackerConfig.form.readDatum d)
    | none => pure { }
  let number ← addTracker config
  bindIf as (.tracker number)
  pure config

def setActiveRange (on line : String) (extent : Extent) : Work Unit := do
  let number ← trackerNumber on
  let r ← beamline line extent
  onStation number (Station.setRange r)

def activeRange (on : String) : Work (Option (Range Float)) := do
  let t ← tracker on
  pure t.range

/-- Gives a tracker a bunch to track copies of: the bunch itself, or a copy made now. -/
def setInitialBunch (on bunchName : String) (own : Bool) : Work Unit := do
  let number ← trackerNumber on
  let bunchNumber ← bunchNumber bunchName
  if own then onStation number (Station.setInitial (.shared bunchNumber))
  else do
    let l ← load bunchNumber
    let l ← Action.lift l.copy
    onStation number (Station.setInitial (.own l))

def createBeamBunch (on beamName : String) (as : Option String) : Work (Load Float) := do
  let _ ← trackerNumber on
  let beamNumber ← beamNumber beamName
  let beam ← entry beams beamNumber
  let b ← Action.lift (Rig.createBunch beam)
  keepBunch as (.table b)
  pure (.table b)

def trackCopy (on : String) (as : Option String) : Work (Load Float) := do
  let number ← trackerNumber on
  let b ← onStation number Station.trackCopy
  keepBunch as (.table b)
  pure (.table b)

/-- Tracks a bunch; the bunch as it is afterwards comes with the outcome. -/
def track (on bunchName : String) : Work (Except Fault Unit × Load Float) := do
  let number ← trackerNumber on
  let bunchNumber ← bunchNumber bunchName
  let outcome ← (onStation number (Station.rideShared bunchNumber Ride.track)).outcome
  let after ← load bunchNumber
  pure (outcome, after)

def trackElement (on bunchName elementName : String) : Work (Load Float) := do
  let number ← trackerNumber on
  let bunchNumber ← bunchNumber bunchName
  let e ← element elementName
  onStation number (Station.rideShared bunchNumber fun t => Ride.throughElement t e)
  load bunchNumber

def stepCount (on elementName : String) : Work Nat := do
  let t ← tracker on
  let e ← element elementName
  let processes ← Action.ask fun s => s.plant.processesOf t.processes
  Action.lift (Pass.stepCount processes e)

/-- The tracker that a name stands for: a tracker itself, or the one of a solver. -/
def trackerBehind (name : String) : Work Nat := do
  match ← handle name with
  | .tracker number => pure number
  | .solver number => do
    let solver ← entry solvers number
    pure solver.tracker
  | _ => throw (.wrongObject name)

def addProcess (on processName : String) : Work Unit := do
  let number ← trackerBehind on
  let process ← processNumber processName
  onStation number (Station.attach process)

def removeProcess (on processName : String) : Work Unit := do
  let number ← trackerBehind on
  let process ← processNumber processName
  onStation number (Station.detach process)

/-- How a process is listed: by its first name, or as it is written. -/
def processText (s : Session) (number : Nat) : String := (s.processName? number).getD (s.plant.processLabel number)

/-- Attached processes in the order in which they act. -/
def listProcesses (on : String) : Work (List String) := do
  let number ← trackerBehind on
  let t ← entry trackers number
  let s ← get
  let kindOf := fun n => ((s.plant.processes.get? n).map BeamProcess.kind).getD .diagnostic
  pure ((BeamProcess.inOrder kindOf t.processes).map (processText s))

/-- Attaches processes for the time of a body. With an interruption the body ends in it, and its answers stay. -/
def attached {β : Type} (on : String) (processNames : List String) (interruption : Option String) (body : Work β) :
    Work (β × Except Fault Unit) := do
  let number ← trackerNumber on
  let processes ← processNames.mapM processNumber
  onStation number (Station.attachAll processes)
  let result ← body.outcome
  onStation number (Station.detachAll processes)
  let answers ← Action.lift result
  pure (answers, match interruption with
    | none => .ok ()
    | some text => .error (.interrupted text))

def initStepper (on bunchName : String) : Work Unit := do
  let number ← trackerNumber on
  let bunchNumber ← bunchNumber bunchName
  onStation number (Station.initStepper bunchNumber)

def currentElement (on : String) : Work (Element Float) := do
  let t ← tracker on
  Action.lift t.current

def step (on : String) : Work Bool := do
  let number ← trackerNumber on
  onStation number Station.step

/-- The bunch of the stepper, under the first of its names. -/
def steppedBunch (on : String) : Work (Option String × Load Float) := do
  let t ← tracker on
  let number ← Action.lift t.steppedBunch
  let l ← load number
  let s ← get
  pure (s.bunchName? number, l)

def createObserver (as : Option String) (kind : ObserverKind) : Work Unit := do
  let s ← get
  let number := s.plant.records.fresh
  set { s with plant := { s.plant with records := s.plant.records.insert number [] } }
  bindIf as (.observer (match kind with
    | .recording => .recorder number
    | .broken => .failing number))

def observer : String → Work Observer := pick Handle.observer?

def addObserver (on observerName : String) : Work Unit := do
  let number ← trackerNumber on
  let o ← observer observerName
  onStation number (Station.addObserver o)

def removeObserver (on observerName : String) : Work Unit := do
  let number ← trackerNumber on
  let o ← observer observerName
  onStation number (Station.removeObserver o)

def observers (on : String) : Work (List String) := do
  let t ← tracker on
  pure (t.observers.map Observer.name)

def takeEvents (on : String) : Work (List (Event Float)) := do
  match ← observer on with
  | .logger => pure []
  | .recorder number | .failing number => do
    let s ← get
    set { s with plant := { s.plant with records := s.plant.records.insert number [] } }
    pure ((s.plant.records.get? number).getD []).reverse

/-- A fresh tracker with the settings of another one, and nothing else of it. -/
def spawn (on : String) (as : Option String) : Work (Tracker Float) := do
  let t ← tracker on
  let number ← addTracker t.config
  bindIf as (.tracker number)
  entry trackers number

end Session

end BeamOptics
