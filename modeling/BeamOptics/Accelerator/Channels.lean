import BeamOptics.Accelerator.Basic
import BeamOptics.Lattice.Channel
import BeamOptics.Pattern.Matching

/-!
# Channels of a segment

Position monitors and orbit correctors along a segment, chosen by plane. The horizontal ones come first.
-/

namespace BeamOptics

inductive PlaneChoice
  | x | y | both
  deriving DecidableEq, Repr

namespace PlaneChoice

def ofText (text : String) : Except Fault PlaneChoice :=
  if text = "x" then .ok x
  else if text = "y" then .ok y
  else if text = "xy" then .ok both
  else .error (.unknownPlane text)

def planes : PlaneChoice → List Plane
  | x => [.x]
  | y => [.y]
  | both => [.x, .y]

end PlaneChoice

namespace Accelerator

def idsBetween (first last : String) : Pattern.Node :=
  .seq (Pattern.literal first.toList) (.seq Pattern.anyText (Pattern.literal last.toList))

def monitorIds : Plane → Pattern.Node
  | .x => idsBetween "BPM" ".X"
  | .y => idsBetween "BPM" ".Y"

/-- Strengths of correctors, which are named for their plane. -/
def correctorIds : Plane → Pattern.Node
  | .x => idsBetween "XCor" ".B0"
  | .y => idsBetween "YCor" ".B0"

variable {α : Type}

/-- Channels of the segment to work on, plane by plane. -/
def channels (a : Accelerator α) (m : Model α) (ids : Plane → Pattern.Node) (writable : Bool)
    (choice : PlaneChoice) (argument : SegmentArgument) : Except Fault (List (Channel α)) := do
  let s ← a.resolve m argument
  let r ← m.segmentRange s
  pure (choice.planes.flatMap fun plane => Channel.ofRange r writable (ids plane).fullMatch)

def monitorChannels (a : Accelerator α) (m : Model α) : PlaneChoice → SegmentArgument →
    Except Fault (List (Channel α)) :=
  a.channels m monitorIds false

def correctorChannels (a : Accelerator α) (m : Model α) : PlaneChoice → SegmentArgument →
    Except Fault (List (Channel α)) :=
  a.channels m correctorIds true

end Accelerator

end BeamOptics
