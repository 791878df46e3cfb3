import BeamOptics.LinearAlgebra.Jacobi
import BeamOptics.Nested

/-!
# Least squares on arrays

The solver on arrays of any shape. Shapes combine by the usual rules: a product needs equal inner lengths, and an
axis of length one stretches to the length beside it.
-/

namespace BeamOptics

namespace LeastSquares

/-- Why arrays have no solution. -/
inductive ArrayFault
  /-- Shapes that do not go together. -/
  | shape
  /-- No matrix, or one that cannot be decomposed. -/
  | decomposition
  deriving DecidableEq, Repr

def grid? (a : Nested Float) : Option (List (List Float)) := a.items.mapM Nested.toList?

def columnsOf (rows : List (List Float)) (width : Nat) : List (List Float) :=
  (List.range width).map fun j => rows.map fun row => row.getD j 0

def product (rows columns : List (List Float)) : List (List Float) :=
  rows.map fun row => columns.map fun column => Scalar.sum (List.zipWith (· * ·) row column)

/-- Scales the last axis, stretching either side if it has a single entry. -/
def scaleRow (inverses row : List Float) : Option (List Float) :=
  if row.length = inverses.length then some (List.zipWith (· * ·) inverses row)
  else
    match row, inverses with
    | [x], _ => some (inverses.map (· * x))
    | _, [s] => some (row.map (s * ·))
    | _, _ => none

/-- Solves for several right-hand sides at once, the way products and stretching arrange them. -/
def solveGrid {n : Nat} (d : Svd Float n) (rhs : List (List Float)) (width : Nat) (threshold : Float) :
    Except ArrayFault (Nested Float) :=
  let rows := fun (m : SquareMatrix Float n) => m.toList.map Vector.toList
  let components := product (rows d.left.transpose) (columnsOf rhs width)
  let inverses := (Svd.inverses d.values threshold).toList
  match components.mapM (scaleRow inverses) with
  | none => .error .shape
  | some scaled =>
    let width := if width = 1 then n else width
    .ok (.node ((product (rows d.right.transpose) (columnsOf scaled width)).map Nested.ofList))

def vectorOf (n : Nat) (values : List Float) : Vector Float n := Vector.ofFn fun i => values.getD i.val 0

/-- Solves with a square matrix. -/
def solveSquare (n : Nat) (rows : List (List Float)) (rhs : Nested Float) (threshold : Float) :
    Except ArrayFault (Nested Float) :=
  match Jacobi.decompose n (Jacobi.matrixOf n fun i j => (rows.getD i []).getD j 0) with
  | none => .error .decomposition
  | some d =>
    match rhs.shape? with
    | some [k] =>
      if k = n then .ok (Nested.ofList (d.solve (vectorOf n (rhs.toList?.getD [])) threshold).toList)
      else .error .shape
    | some [k, width] =>
      if k = n then solveGrid d ((grid? rhs).getD []) width threshold else .error .shape
    | _ => .error .shape

/-- A matrix that is not square has no solution, unless it has no columns and a single row. -/
def solveOblong (rows columns : Nat) (entries : List Float) (rhs : Nested Float) : Except ArrayFault (Nested Float) :=
  if entries.any Float.isNaN then .error .decomposition
  else if rows = 1 ∧ columns = 0 ∧ rhs.shape? = some [1] then .ok (.node [])
  else .error .shape

def solve (matrix rhs : Nested Float) (threshold : Float) : Except ArrayFault (Nested Float) :=
  match matrix.shape? with
  | none => .error .shape
  | some [rows, columns] =>
    if rhs.shape?.isNone then .error .shape
    else if rows = columns then solveSquare rows ((grid? matrix).getD []) rhs threshold
    else solveOblong rows columns matrix.leaves rhs
  | some _ => .error .decomposition

end LeastSquares

end BeamOptics
