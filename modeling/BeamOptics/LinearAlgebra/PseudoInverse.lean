import BeamOptics.LinearAlgebra.Matrix

/-!
# Least squares

Solutions through a singular-value decomposition. Singular values up to a given fraction of the largest one count as
zero, so that a singular matrix gives the shortest solution instead of a failure. Any decomposition will do.
-/

namespace BeamOptics

/-- Factors of a matrix: `left * diag values * right`, with the values in descending order. -/
structure Svd (α : Type) (n : Nat) where
  left : SquareMatrix α n
  values : Vector α n
  right : SquareMatrix α n

/-- A method to decompose matrices, with no answer where it does not converge. -/
abbrev Decomposer (α : Type) := (n : Nat) → SquareMatrix α n → Option (Svd α n)

namespace Svd

variable {α : Type} {n : Nat} [Scalar α]

/-- Inverses of the singular values above the threshold times the largest; zero for the others. -/
def inverses (values : Vector α n) (threshold : α) : Vector α n :=
  match values[0]? with
  | none => values
  | some largest =>
    if Scalar.lt 0 largest then
      values.map fun s => if Scalar.lt (threshold * largest) s then 1 / s else 0
    else values.map fun _ => 0

def solve (d : Svd α n) (rhs : Vector α n) (threshold : α) : Vector α n :=
  let components := d.left.transpose.act rhs
  d.right.transpose.act (Vector.zipWith (· * ·) (inverses d.values threshold) components)

end Svd

end BeamOptics
