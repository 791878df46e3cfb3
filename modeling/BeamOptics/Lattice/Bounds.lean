import BeamOptics.Lattice.Model
import BeamOptics.Settings.Segment

/-!
# Bounds given by a caller

A part of a line may be given as a segment or as an untyped value that should come apart into two indexes.
-/

namespace BeamOptics

inductive SegmentArgument where
  | segment (segment : Segment)
  | untyped (value : Datum)

namespace SegmentArgument

/-- Nothing was given. -/
def absent : SegmentArgument → Bool
  | untyped .null => true
  | _ => false

def compare (r : Datum.Relation) (a b : Datum) : Except Fault Bool := (Datum.relate r a b).mapError Fault.unordered

variable {α : Type}

/-- An untyped value as an index of a line. -/
def index (m : Model α) (d : Datum) : Except Fault Unit := do
  let below ← compare .less d (.int 0)
  let above ← compare .lessEqual (.int m.length) d
  if below || above then throw (.indexOutside d.display m.name m.length)

/-- The range of a line between two untyped bounds. Bounds are whole numbers: floats are refused when they are laid on
the line. -/
def rangeBetween (m : Model α) (first last : Datum) : Except Fault (Range α) := do
  if ← compare .greater first last then throw (.reversedRange first.display last.display)
  index m first
  index m last
  match first, last with
  | .float x, _ => throw (.notAnIndex (Datum.float x).typeName)
  | _, .float x => throw (.notAnIndex (Datum.float x).typeName)
  | _, _ => m.subrange (first.whole?.getD 0) (last.whole?.getD 0)

/-- The range of a line that the argument denotes: the whole line if nothing was given. -/
def range (m : Model α) (argument : SegmentArgument) : Except Fault (Range α) :=
  match argument with
  | segment s => m.segmentRange s
  | untyped .null => m.beamline
  | untyped d => do
    let (first, last) ← Segment.pairOf d
    rangeBetween m first last

/-- A segment within a line. -/
def within (m : Model α) (s : Segment) : Except Fault Segment := do
  let full ← m.fullSegment
  if full.last < s.last then throw (.beyondLine s full)
  pure s

/-- The segment of a line that the argument denotes. -/
def resolve (m : Model α) (argument : SegmentArgument) : Except Fault Segment :=
  match argument with
  | segment s => within m s
  | untyped d =>
    match Segment.pairOf d with
    | .error _ => .error (.segmentArgument d)
    | .ok (first, last) => do
      let reversed ← compare .greater first last
      let negative ← if reversed then pure true else compare .less first (.int 0)
      if negative then throw (.invalidSegment first.display last.display)
      let s ← Segment.ofBounds first last
      within m s

end SegmentArgument

end BeamOptics
