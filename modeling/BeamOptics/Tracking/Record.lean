import BeamOptics.Fault
import BeamOptics.Lattice.Range
import BeamOptics.Settings.LogLevel

/-!
# Records

What trackers, accelerators and orbit searches tell about their work: events for observers, and notes for the log.
-/

namespace BeamOptics

/-- One tracking of a bunch through a range, as its observers see it. -/
structure Journey where
  tracker : String
  range : Segment
  particles : Nat
  deriving DecidableEq, Repr

inductive Event (α : Type) where
  | start (journey : Journey)
  | complete (journey : Journey) (momentum : α)
  | error (journey : Journey) (index : Nat) (fault : Fault)

inductive TrackerNote
  | rangeSet (range : Segment)
  | processAdded (label : String)
  | processRemoved (label : String)
  | processNotAttached (label : String)
  | observerAdded (name : String)
  | observerRemoved (name : String)
  | observerFailed (name text : String)

inductive AcceleratorNote (α : Type) where
  | incremental (enabled : Bool)
  | activeSegment (segment : Segment)
  | initialised (states : String)
  | trackingState (state : String) (segment : Segment)
  | advancing (state : String) (first last : Nat)
  | rewinding (state : String) (location : Nat) (segment : Segment)
  | finalMomentum (momentum : α)
  | newBunchMomentum (momentum : α)

inductive OrbitNote (α : Type) where
  | iteration (step : Int) (residual : α)
  | converged (steps : Int) (residual : Option α)
  | notConverged (steps : Int) (residual : Option α)

inductive Note (α : Type) where
  | tracker (name : String) (note : TrackerNote)
  | started (journey : Journey)
  | completed (momentum : α)
  | failed (fault : Fault)
  | nonFiniteParticle (particle : Nat) (element : String)
  | accelerator (name : String) (note : AcceleratorNote α)
  | orbit (note : OrbitNote α)

namespace TrackerNote

def level : TrackerNote → LogLevel
  | observerFailed .. => .warning
  | _ => .debug

def text : TrackerNote → String
  | rangeSet range => "Active range set to " ++ range.rangeText
  | processAdded label => "Added process: " ++ label
  | processRemoved label => "Removed process: " ++ label
  | processNotAttached label => s!"Process {label} was not attached"
  | observerAdded name => "Added monitor: " ++ name
  | observerRemoved name => "Removed monitor: " ++ name
  | observerFailed name text => s!"Monitor {name} error in on_track_start: {text}"

end TrackerNote

def momentumText (p : Float) : String := Decimal.general p 6 ++ " GeV/c"

namespace AcceleratorNote

variable {α : Type}

def level : AcceleratorNote α → LogLevel
  | incremental _ | initialised _ | newBunchMomentum _ => .info
  | rewinding .. => .warning
  | _ => .debug

def text : AcceleratorNote Float → String
  | incremental enabled => "incremental tracking " ++ (if enabled then "enabled" else "disabled")
  | activeSegment segment => "active segment " ++ segment.text
  | initialised states => s!"initialised tracking for {states} states"
  | trackingState state segment => s!"tracking state {state} through {segment.text}"
  | advancing state first last => s!"advancing state {state} from {first} to {last}"
  | rewinding state location segment =>
    s!"state {state} at index {location} is past the start of {segment.text}; rewinding"
  | finalMomentum p | newBunchMomentum p => "final momentum " ++ momentumText p

end AcceleratorNote

namespace OrbitNote

variable {α : Type}

def level : OrbitNote α → LogLevel
  | iteration .. => .debug
  | converged .. => .info
  | notConverged .. => .warning

/-- A residual in log lines; below rounding its digits mean nothing. -/
def residualText (r : Float) : String := if r ≤ 1e-20 then "tiny" else Decimal.scientific r 3

def text : OrbitNote Float → String
  | iteration step r => s!"Closed orbit iteration {step}: residual " ++ residualText r
  | converged steps r =>
    s!"Closed orbit converged after {steps} iterations (residual " ++ residualText (r.getD (1 / 0)) ++ ")"
  | notConverged steps r =>
    s!"Closed orbit not converged after {steps} iterations (residual " ++ residualText (r.getD (1 / 0)) ++ ")"

end OrbitNote

namespace Note

variable {α : Type}

def level : Note α → LogLevel
  | tracker _ note => note.level
  | started _ | completed _ => .debug
  | failed _ | nonFiniteParticle .. => .error
  | accelerator _ note => note.level
  | orbit note => note.level

def origin : Note α → String
  | tracker name _ => "simulators.base." ++ name
  | started _ | completed _ | failed _ => "simulators.base"
  | nonFiniteParticle .. => "simulators.processes"
  | accelerator .. => "simulators.accelerator"
  | orbit _ => "optics.closed_orbit"

def text : Note Float → String
  | tracker _ note => note.text
  | started journey => s!"Tracking {journey.particles} particles through " ++ journey.range.rangeText
  | completed p => "Tracking complete, reference momentum " ++ momentumText p
  | failed fault => "Tracking error: " ++ fault.message
  | nonFiniteParticle particle element => s!"Non-finite particle {particle} after {element}"
  | accelerator name note => name ++ ": " ++ note.text
  | orbit note => note.text

def line (note : Note Float) : String := note.level.name ++ " " ++ note.origin ++ ": " ++ note.text

end Note

/-- Notes that a fault calls for by itself: a detailed check names every particle. -/
def Fault.notes {α : Type} : Fault → List (Note α)
  | .nonFinite element particles true => particles.map fun i => .nonFiniteParticle i element
  | _ => []

/-- The note with which a logging observer passes an event on. -/
def Event.note {α : Type} : Event α → Note α
  | start journey => .started journey
  | complete _ momentum => .completed momentum
  | error _ _ fault => .failed fault

end BeamOptics
