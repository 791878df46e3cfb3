import BeamOptics.Fault
import BeamOptics.LinearAlgebra.PseudoInverse
import BeamOptics.PhaseVector

/-!
# Newton steps

One step towards a fixed point of a turn. A probe is the orbit and one particle displaced in each solved coordinate;
their images give the Jacobian of the turn less the identity by finite differences, and the least-squares solution
for the residual is the correction.
-/

namespace BeamOptics

namespace Newton

variable {α : Type} [Scalar α]

def coordinates (transverseOnly : Bool) : List Coordinate :=
  if transverseOnly then Coordinate.transverse else Coordinate.all

def displaced (solved : List Coordinate) (delta : α) (orbit : PhaseVector α) (c : Coordinate) : PhaseVector α :=
  PhaseVector.ofFn fun d =>
    if solved.contains d then orbit.get d + delta * (if d = c then 1 else 0) else orbit.get d

/-- The reference particle, then one displaced particle for each solved coordinate. -/
def probe (solved : List Coordinate) (delta : α) (orbit : PhaseVector α) : List (PhaseVector α) :=
  orbit :: solved.map (displaced solved delta orbit)

def project (solved : List Coordinate) (v : PhaseVector α) : Vector α solved.length :=
  Vector.ofFn fun i => v.get solved[i]

/-- Finite-difference Jacobian of the turn, less the identity. -/
def jacobian (solved : List Coordinate) (delta : α) (reference : PhaseVector α) (images : List (PhaseVector α)) :
    SquareMatrix α solved.length :=
  SquareMatrix.ofFn fun row column =>
    ((images.getD column reference).get solved[row] - reference.get solved[row]) / delta -
      (if row = column then 1 else 0)

def correct (solved : List Coordinate) (orbit : PhaseVector α) (correction : Vector α solved.length) :
    PhaseVector α :=
  (List.finRange solved.length).foldl (fun v i => v.modify solved[i] fun a => a - correction[i]) orbit

/-- Outcome of a step: the next orbit and the squared norms of residual and correction. -/
structure Step (α : Type) where
  orbit : PhaseVector α
  residual : α
  correction : α

/-- The step from an orbit, given the images of its probe. -/
def step (decompose : Decomposer α) (solved : List Coordinate) (delta threshold : α) (orbit : PhaseVector α)
    (images : List (PhaseVector α)) : Except Fault (Step α) :=
  match images with
  | [] => .error .noDecomposition
  | reference :: displaced =>
    match decompose _ (jacobian solved delta reference displaced) with
    | none => .error .noDecomposition
    | some d =>
      let residual := project solved (reference - orbit)
      let correction := d.solve residual threshold
      .ok {
        orbit := correct solved orbit correction
        residual := SquareMatrix.dot residual residual
        correction := SquareMatrix.dot correction correction }

end Newton

end BeamOptics
