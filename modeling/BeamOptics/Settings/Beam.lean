import BeamOptics.Form
import BeamOptics.PhaseVector
import BeamOptics.Decimal.Double

/-!
# Reference beam

The beam that bunches are made from: a reference momentum in GeV/c, a charge per macroparticle, a centroid.
-/

namespace BeamOptics

structure ReferenceBeam (α : Type) where
  momentum : α
  charge : α
  centroid : PhaseVector α

namespace ReferenceBeam

def centroidField (name : String) (c : Coordinate) : Field (ReferenceBeam Float) :=
  .of name false Rule.float fun x beam => { beam with centroid := beam.centroid.modify c fun _ => x }

def form : Form (ReferenceBeam Float) (ReferenceBeam Float) where
  title := "BeamData"
  home := "ringtrack.simulators.types"
  blank := ⟨1, 1, 0⟩
  fields := [
    .of "reference_momentum" true (Rule.float.only (Scalar.lt 0) .greaterThan)
      fun x beam => { beam with momentum := x },
    .of "charge" false Rule.float fun x beam => { beam with charge := x },
    centroidField "x0" .x,
    centroidField "xp0" .xp,
    centroidField "y0" .y,
    centroidField "yp0" .yp,
    centroidField "ct0" .ct,
    centroidField "dp0" .dp]
  finish := .ok

end ReferenceBeam

end BeamOptics
