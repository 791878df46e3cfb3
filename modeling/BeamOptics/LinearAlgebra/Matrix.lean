import BeamOptics.Scalar

/-!
# Square matrices
-/

namespace BeamOptics

abbrev SquareMatrix (α : Type) (n : Nat) := Vector (Vector α n) n

namespace SquareMatrix

variable {α : Type} {n : Nat}

def ofFn (f : Fin n → Fin n → α) : SquareMatrix α n := Vector.ofFn fun i => Vector.ofFn fun j => f i j

def entry (m : SquareMatrix α n) (i j : Fin n) : α := m[i][j]

def transpose (m : SquareMatrix α n) : SquareMatrix α n := ofFn fun i j => m.entry j i

@[simp] theorem entry_ofFn (f : Fin n → Fin n → α) (i j : Fin n) : (ofFn f).entry i j = f i j := by
  simp [ofFn, entry]

@[simp] theorem entry_transpose (m : SquareMatrix α n) (i j : Fin n) : m.transpose.entry i j = m.entry j i := by
  simp [transpose]

variable [Scalar α]

def dot (v w : Vector α n) : α := Scalar.sum (Vector.zipWith (· * ·) v w).toList

def act (m : SquareMatrix α n) (v : Vector α n) : Vector α n := m.map fun row => dot row v

def identity : SquareMatrix α n := ofFn fun i j => if i = j then 1 else 0

end SquareMatrix

end BeamOptics
