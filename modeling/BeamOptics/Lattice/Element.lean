import BeamOptics.Fault
import BeamOptics.PhaseVector

/-!
# Elements

The elements of a beamline. An element is a fixed description under an inventory tag; what changes while a machine
runs, the strength of a corrector and the readings of a monitor, is kept apart under the tag.
-/

namespace BeamOptics

/-- A transverse plane. -/
inductive Plane
  | x | y
  deriving DecidableEq, Repr

def Plane.name : Plane → String
  | x => "x"
  | y => "y"

/-- What an element does to the beam. -/
inductive Optics (α : Type) where
  | plain
  | drift
  | marker
  /-- Positive `k1` focuses horizontally and defocuses vertically. -/
  | quadrupole (k1 : α)
  | bend (angle k1 : α)
  /-- Kicks by an angle in one plane, spread along the element; the strength is the one it was built with. -/
  | corrector (plane : Plane) (strength : α)
  /-- Reads the centroid of a passing bunch; the readings are the ones it was built with. -/
  | monitor (x y : α)
  /-- An explicit map with a constant kick, applied as a whole. -/
  | map (matrix : TransferMap α) (kick : PhaseVector α)

/-- A quantity of an element that the control system sees. -/
inductive Signal
  | x | y | strength
  deriving DecidableEq, Repr

def Signal.name : Signal → String
  | x => "X"
  | y => "Y"
  | strength => "B0"

structure Element (α : Type) where
  tag : Nat
  name : String
  type : String
  length : α
  optics : Optics α

namespace Optics

variable {α : Type}

def className : Optics α → String
  | plain => "Element"
  | drift => "Drift"
  | marker => "Marker"
  | quadrupole _ => "Quadrupole"
  | bend .. => "SectorBend"
  | corrector .. => "Corrector"
  | monitor .. => "Monitor"
  | map .. => "MatrixElement"

/-- Whether a tracker may split the element into steps. -/
def sliceable : Optics α → Bool
  | map .. => false
  | _ => true

def isBend : Optics α → Bool
  | bend .. => true
  | _ => false

def readable : Optics α → List Signal
  | monitor .. => [.x, .y]
  | _ => []

def writable : Optics α → List Signal
  | corrector .. => [.strength]
  | _ => []

/-- Signals to read, the writable ones last. -/
def visible (o : Optics α) : List Signal := o.readable ++ o.writable

end Optics

namespace Element

variable {α : Type} [Scalar α]

/-- Name and length of an element, before anything else about it. -/
def checkFrame (name : String) (length : α) : Except Fault Unit :=
  if name = "" then .error .unnamedElement
  else if Scalar.lt length 0 then .error (.negativeLength name)
  else .ok ()

/-- The rules for the lengths of markers and bends. -/
def checkLength (length : α) : Optics α → Except Fault Unit
  | .marker => if Scalar.beq length 0 then .ok () else .error .longMarker
  | .bend .. => if Scalar.le length 0 then .error .shortBend else .ok ()
  | _ => .ok ()

/-- Builds an element whose optics are read after its name and length. -/
def build (tag : Nat) (name type : String) (length : α) (optics : Except Fault (Optics α)) :
    Except Fault (Element α) := do
  checkFrame name length
  let optics ← optics
  checkLength length optics
  pure ⟨tag, name, type, length, optics⟩

def isBend (e : Element α) : Bool := e.optics.isBend

def sliceable (e : Element α) : Bool := e.optics.sliceable

/-- Curvature of the reference trajectory; zero outside bends. -/
def curvature (e : Element α) : α :=
  match e.optics with
  | .bend angle _ => angle / e.length
  | _ => 0

def builtStrength (e : Element α) : α :=
  match e.optics with
  | .corrector _ strength => strength
  | _ => 0

def builtReading (e : Element α) : α × α :=
  match e.optics with
  | .monitor x y => (x, y)
  | _ => (0, 0)

/-- The signal of a given name, if the element has one among `signals`. -/
def signal? (signals : List Signal) (name : String) : Option Signal := signals.find? (·.name == name)

/-- Sum of lengths along a line, from the left. -/
def totalLength (elements : List (Element α)) : α := Scalar.sum (elements.map (·.length))

end Element

end BeamOptics
