import BeamOptics.ClosedOrbit.Rms
import BeamOptics.ClosedOrbit.Search
import BeamOptics.ClosedOrbit.Setting
import BeamOptics.LinearAlgebra.Jacobi
import BeamOptics.Session.Tracking

/-!
# Closed orbits in a session
-/

namespace BeamOptics

namespace Session

def solverNumber : String → Work Nat := pick Handle.solver?

def solver (name : String) : Work Solver := do
  let number ← solverNumber name
  entry solvers number

def configOf : Option Datum → Except Fault (OrbitConfig Float)
  | some d => OrbitConfig.form.readDatum d
  | none => .ok OrbitConfig.standard

/-- Builds a solver; without a tracker it gets one of its own. -/
def createSolver (as : Option String) (modelName : String) (momentum : Float) (d : Option Datum)
    (trackerName : Option String) : Work (OrbitConfig Float) := do
  let model ← modelNumber modelName
  let settings ← Action.lift (configOf d)
  let given ← trackerName.mapM trackerNumber
  if momentum ≤ 0 then throw .momentumNotPositive
  let tracker ← match given with
    | some number => pure number
    | none => addTracker { name := "closed_orbit" }
  let config ← Action.ask fun s => s.configs.fresh
  let number ← Action.ask fun s => s.solvers.fresh
  modify fun s =>
    { s with
      configs := s.configs.insert config settings
      solvers := s.solvers.insert number { model, momentum, config, tracker } }
  bindIf as (.solver number)
  pure settings

/-- The settings of a solver, shared under a name if there is one. -/
def config (on : String) (as : Option String) : Work (OrbitConfig Float) := do
  let s ← solver on
  bindIf as (.config s.config)
  entry configs s.config

def changeOf (number : Nat) (setting : OrbitSetting) (d : Datum) : Work Unit := do
  let c ← entry configs number
  let c ← Action.lift (c.change setting d)
  modify fun s => { s with configs := s.configs.insert number c }

/-- Changes a setting; the settings as they are afterwards come with the outcome. -/
def changeSetting (on : String) (setting : OrbitSetting) (d : Datum) :
    Work (Except Fault Unit × OrbitConfig Float) := do
  let s ← solver on
  let outcome ← (changeOf s.config setting d).outcome
  let after ← entry configs s.config
  pure (outcome, after)

/-- Searches the closed orbit. The guess is looked at before the segment is laid on the line. -/
def findOrbit (on : String) (guess : Nested Float) (choice : SegmentChoice) (as : Option String)
    (decompose : Decomposer Float := Jacobi.decompose) : Work (OrbitResult Float) := do
  let s ← solver on
  let argument ← segmentArgument choice
  let guess ← Action.lift (guess.phaseVector Fault.guessShape)
  let m ← entry models s.model
  let r ← Action.lift (argument.range m)
  let c ← entry configs s.config
  let result ← onStation s.tracker (OrbitSearch.find decompose c s.momentum r guess)
  bindIf as (.result result)
  pure result

/-- Excursion of an orbit, in a fresh tracker with the settings of the solver's own. -/
def excursion (on : String) (start : Nested Float) : Work (PhaseVector Float) := do
  let s ← solver on
  let start ← Action.lift (start.phaseVector Fault.startShape)
  let m ← entry models s.model
  let t ← entry trackers s.tracker
  onPlant (Rms.excursion m t.config s.momentum start)

def solverRange (on : String) : Work (Option (Range Float)) := do
  let s ← solver on
  let t ← entry trackers s.tracker
  pure t.range

def solverLabel (s : Session) (solver : Solver) : String :=
  let model := ((s.models.get? solver.model).map (·.name)).getD ""
  let tracker := ((s.trackers.get? solver.tracker).map Tracker.label).getD ""
  s!"ClosedOrbitSolver(model='{model}', reference_momentum=" ++ Decimal.general solver.momentum 6 ++
    s!", tracker={tracker})"

def label (on : String) : Work String := do
  match ← handle on with
  | .bunch number => do
    let l ← load number
    pure l.label
  | .tracker number => do
    let t ← entry trackers number
    pure t.label
  | .accelerator number => do
    let a ← entry assemblies number
    pure a.accelerator.label
  | .solver number => do
    let solver ← entry solvers number
    Action.ask fun s => solverLabel s solver
  | _ => throw (.wrongObject on)

end Session

end BeamOptics
