import BeamOptics.Decimal.Double
import BeamOptics.LinearAlgebra.PseudoInverse

/-!
# Singular values by rotations

Columns of a matrix are rotated in pairs until all are orthogonal to each other. Their lengths are the singular
values, their directions the left factor, and the rotations together the right factor.
-/

namespace BeamOptics

namespace Jacobi

/-- A column of the matrix, and the column of the accumulated rotations that goes with it. -/
structure Column where
  image : Array Float
  source : Array Float

def dot (v w : Array Float) : Float := Scalar.sum (Array.zipWith (· * ·) v w).toList

def norm (v : Array Float) : Float := (dot v v).sqrt

def combine (a : Float) (v : Array Float) (b : Float) (w : Array Float) : Array Float :=
  Array.zipWith (fun x y => a * x + b * y) v w

/-- Cosine and sine of the rotation that makes two columns orthogonal, unless they are so already. -/
def rotation? (v w : Array Float) : Option (Float × Float) :=
  let a := dot v v
  let b := dot w w
  let c := dot v w
  if c == 0 || c.abs ≤ 1e-17 * (a * b).sqrt then none
  else
    let z := (b - a) / (2 * c)
    let t := (if z < 0 then -1 else 1) / (z.abs + (1 + z * z).sqrt)
    let cosine := 1 / (1 + t * t).sqrt
    some (cosine, cosine * t)

def rotate (p q : Column) : Option (Column × Column) :=
  (rotation? p.image q.image).map fun (c, s) =>
    (⟨combine c p.image (-s) q.image, combine c p.source (-s) q.source⟩,
      ⟨combine s p.image c q.image, combine s p.source c q.source⟩)

/-- Rotates one column against all the others in turn; says whether any rotation was needed. -/
def rotateAgainst (p : Column) : List Column → Column × List Column × Bool
  | [] => (p, [], false)
  | q :: rest =>
    match rotate p q with
    | none =>
      let (p, rest, moved) := rotateAgainst p rest
      (p, q :: rest, moved)
    | some (p, q) =>
      let (p, rest, _) := rotateAgainst p rest
      (p, q :: rest, true)

theorem length_rotateAgainst (p : Column) (rest : List Column) :
    (rotateAgainst p rest).2.1.length = rest.length := by
  induction rest generalizing p with
  | nil => rfl
  | cons q rest ih =>
    unfold rotateAgainst
    split <;> simp [ih]

def sweep : List Column → List Column × Bool
  | [] => ([], false)
  | p :: rest =>
    let turned := rotateAgainst p rest
    let (rest, later) := sweep turned.2.1
    (turned.1 :: rest, turned.2.2 || later)
termination_by columns => columns.length
decreasing_by simp [length_rotateAgainst]

/-- Sweeps until nothing moves, or the count is used up. -/
def sweeps : Nat → List Column → List Column
  | 0, columns => columns
  | n + 1, columns =>
    match sweep columns with
    | (columns, false) => columns
    | (columns, true) => sweeps n columns

def unit (n k : Nat) : Array Float := (Array.range n).map fun i => if i = k then 1 else 0

/-- What is left of a vector besides its parts along given directions. -/
def residue (directions : List (Array Float)) (v : Array Float) : Array Float :=
  directions.foldl (fun v u => combine 1 v (-(dot u v)) u) v

def complement (n : Nat) (directions : List (Array Float)) : Array Float :=
  let candidates := (List.range n).map fun k => residue directions (residue directions (unit n k))
  let best := candidates.foldl (fun best v => if norm best < norm v then v else best) (Array.replicate n 0)
  best.map (· / norm best)

/-- Directions of columns; a column of length zero gets one orthogonal to those before it. -/
def directions (n : Nat) : List (Array Float) → List (Array Float) → List (Array Float)
  | _, [] => []
  | done, v :: rest =>
    let length := norm v
    let u := if length > 0 then v.map (· / length) else complement n done
    u :: directions n (done ++ [u]) rest

def matrixOf (n : Nat) (entry : Nat → Nat → Float) : SquareMatrix Float n :=
  SquareMatrix.ofFn fun i j => entry i.val j.val

def at2 (columns : Array (Array Float)) (j i : Nat) : Float := (columns.getD j #[]).getD i 0

/-- Decomposes a finite matrix, scaled by its largest entry. -/
def decomposeFinite (n : Nat) (m : SquareMatrix Float n) : Svd Float n :=
  let rows := m.toArray.map Vector.toArray
  let scale := rows.foldl (fun s row => row.foldl (fun s x => if s < x.abs then x.abs else s) s) 0
  let scale := if scale > 0 then scale else 1
  let columns := (List.range n).map fun j =>
    (⟨(Array.range n).map fun i => at2 rows i j / scale, unit n j⟩ : Column)
  let columns := (sweeps 60 columns).mergeSort fun p q => !(norm p.image < norm q.image)
  let left := (directions n [] (columns.map Column.image)).toArray
  let right := (columns.map Column.source).toArray
  let values := (columns.map fun c => norm c.image * scale).toArray
  { left := matrixOf n fun i j => at2 left j i
    values := Vector.ofFn fun i => values.getD i.val 0
    right := matrixOf n fun i j => at2 right i j }

def unusable (n : Nat) : Svd Float n := ⟨SquareMatrix.identity, Vector.replicate n (0 / 0), SquareMatrix.identity⟩

/-- Decomposes a matrix of doubles. A NaN, or an infinity off the diagonal, makes it fail; infinities on the diagonal
leave no singular value that could be used. -/
def decompose : Decomposer Float := fun n m =>
  let entries := (List.finRange n).flatMap fun i => (List.finRange n).map fun j => (i, j, m.entry i j)
  if entries.any fun (_, _, x) => x.isNaN then none
  else if entries.any fun (i, j, x) => x.isInf && i ≠ j then none
  else if entries.any fun (_, _, x) => x.isInf then some (unusable n)
  else some (decomposeFinite n m)

end Jacobi

end BeamOptics
