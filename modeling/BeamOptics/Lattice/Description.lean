import BeamOptics.Beam.Stack
import BeamOptics.Lattice.Element

/-!
# Descriptions of elements

An element as a caller describes it, before anything about it has been checked.
-/

namespace BeamOptics

/-- Optics whose plane is still a text and whose arrays have any shape. -/
inductive OpticsDraft (α : Type) where
  | plain
  | drift
  | marker
  | quadrupole (k1 : α)
  | bend (angle k1 : α)
  | corrector (plane : String) (strength : α)
  | monitor (x y : α)
  | map (matrix kick : Option (Nested α))

structure ElementDraft (α : Type) where
  name : String
  /-- The type is the class of the element unless another one is given. -/
  type : Option String := none
  length : α
  optics : OpticsDraft α

namespace OpticsDraft

variable {α : Type}

def className : OpticsDraft α → String
  | plain => "Element"
  | drift => "Drift"
  | marker => "Marker"
  | quadrupole _ => "Quadrupole"
  | bend .. => "SectorBend"
  | corrector .. => "Corrector"
  | monitor .. => "Monitor"
  | map .. => "MatrixElement"

def planeOf (text : String) : Except Fault Plane :=
  if text = "x" then .ok .x else if text = "y" then .ok .y else .error .unknownCorrectorPlane

def checkRegular (a : Nested α) : Except Fault Unit :=
  match a.shape? with
  | some _ => .ok ()
  | none => .error (.irregularArray a.shape)

variable [Scalar α]

/-- Both arrays are looked at as arrays before the shape of either is. -/
def mapOf (element : String) (matrix kick : Option (Nested α)) : Except Fault (Optics α) := do
  matrix.forM checkRegular
  kick.forM checkRegular
  let matrix ← matrix.mapM (Nested.transferMap element)
  let kick ← kick.mapM (Nested.phaseVector fun _ => .kickShape element)
  pure (.map (matrix.getD .identity) (kick.getD 0))

def check (element : String) : OpticsDraft α → Except Fault (Optics α)
  | plain => .ok .plain
  | drift => .ok .drift
  | marker => .ok .marker
  | quadrupole k1 => .ok (.quadrupole k1)
  | bend angle k1 => .ok (.bend angle k1)
  | corrector plane strength => do
    let plane ← planeOf plane
    pure (.corrector plane strength)
  | monitor x y => .ok (.monitor x y)
  | map matrix kick => mapOf element matrix kick

end OpticsDraft

/-- Builds an element under a tag from its description. -/
def ElementDraft.build {α : Type} [Scalar α] (d : ElementDraft α) (tag : Nat) : Except Fault (Element α) :=
  Element.build tag d.name (d.type.getD d.optics.className) d.length (d.optics.check d.name)

end BeamOptics
