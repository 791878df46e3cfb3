import BeamOptics.Lattice.Range
import BeamOptics.Lattice.Source

/-!
# Beamline models

A named line of elements with distinct names, addressed by index, and the power sources that drive it. Lines only
grow at the end.
-/

namespace BeamOptics

structure Model (α : Type) where
  name : String
  elements : List (Element α) := []
  sources : List Source := []

namespace Model

variable {α : Type}

def length (m : Model α) : Nat := m.elements.length

def hasElement (m : Model α) (name : String) : Bool := m.elements.any (·.name == name)

/-- The first index of a source that is no index of the line. -/
def checkSource (m : Model α) (s : Source) : Except Fault Unit :=
  match s.indexes.find? fun i => i < 0 || (m.length : Int) ≤ i with
  | some i => .error (.sourceOutside s.name i)
  | none => .ok ()

/-- Appends an element under a new name. -/
def addElement (m : Model α) (e : Element α) : Except Fault (Model α) :=
  if m.hasElement e.name then .error (.repeatedElement e.name)
  else .ok { m with elements := m.elements ++ [e] }

def addSource (m : Model α) (s : Source) : Except Fault (Model α) := do
  m.checkSource s
  pure { m with sources := m.sources ++ [s] }

def addMembers (m : Model α) : List (Option (Element α)) → Except Fault (Model α)
  | [] => .ok m
  | none :: _ => .error .foreignMember
  | some e :: rest => do
    let m ← m.addElement e
    addMembers m rest

def addSources (m : Model α) : List Source → Except Fault (Model α)
  | [] => .ok m
  | s :: rest => do
    let m ← m.addSource s
    addSources m rest

/-- Builds a model from its members; a member that is no element is refused. -/
def build (name : String) (members : List (Option (Element α))) (sources : List Source) :
    Except Fault (Model α) := do
  if name = "" then throw .unnamedModel
  let line ← addMembers { name } members
  addSources line sources

def checkIndex (m : Model α) (index : Int) : Except Fault Unit :=
  if index < 0 ∨ (m.length : Int) ≤ index then .error (.indexOutside (toString index) m.name m.length) else .ok ()

def element (m : Model α) (index : Int) : Except Fault (Element α) :=
  match (if 0 ≤ index then m.elements[index.toNat]? else none) with
  | some e => .ok e
  | none => .error (.indexOutside (toString index) m.name m.length)

/-- The whole line as a segment. -/
def fullSegment (m : Model α) : Except Fault Segment :=
  if m.elements.isEmpty then .error (.emptyLine m.name) else .ok ⟨0, m.length - 1, Nat.zero_le _⟩

def slice (m : Model α) (s : Segment) : Range α := ⟨s.first, (m.elements.drop s.first).take s.length⟩

/-- The part of the line between two indexes, both included. -/
def subrange (m : Model α) (first last : Int) : Except Fault (Range α) :=
  match Segment.between? first last with
  | none =>
    .error (if last < first then .reversedRange (toString first) (toString last)
      else .indexOutside (toString first) m.name m.length)
  | some s => do
    m.checkIndex first
    m.checkIndex last
    pure (m.slice s)

def segmentRange (m : Model α) (s : Segment) : Except Fault (Range α) := m.subrange s.first s.last

/-- The whole line as a range. -/
def beamline (m : Model α) : Except Fault (Range α) := do
  let full ← m.fullSegment
  pure (m.slice full)

def totalLength [Scalar α] (m : Model α) : α := Element.totalLength m.elements

/-- Indexes of the elements whose name satisfies `p`, ascending. -/
def indexesWhere (m : Model α) (p : String → Bool) : List Nat :=
  (m.elements.zipIdx.filter fun item => p item.1.name).map Prod.snd

/-- Names of the elements of a class, in the order of the line. -/
def namesOfClass (m : Model α) (className : String) : List String :=
  if className = "RFPowerSource" then m.sources.map (·.name)
  else (m.elements.filter fun e => className = "Element" || e.optics.className == className).map (·.name)

/-- Power sources in the order of the line. -/
def klystrons (m : Model α) : List Source := Source.inLineOrder m.sources

end Model

end BeamOptics
