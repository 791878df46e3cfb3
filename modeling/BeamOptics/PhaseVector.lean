import BeamOptics.Scalar

/-!
# Phase space

The six coordinates of a particle and the linear maps between phase-space vectors.
-/

namespace BeamOptics

inductive Coordinate
  | x | xp | y | yp | ct | dp
  deriving DecidableEq, Repr

namespace Coordinate

def all : List Coordinate := [x, xp, y, yp, ct, dp]

def transverse : List Coordinate := [x, xp, y, yp]

def name : Coordinate → String
  | x => "x"
  | xp => "xp"
  | y => "y"
  | yp => "yp"
  | ct => "ct"
  | dp => "dp"

end Coordinate

@[ext]
structure PhaseVector (α : Type) where
  x : α
  xp : α
  y : α
  yp : α
  ct : α
  dp : α
  deriving DecidableEq, Repr

namespace PhaseVector

variable {α β γ : Type}

def get (v : PhaseVector α) : Coordinate → α
  | .x => v.x
  | .xp => v.xp
  | .y => v.y
  | .yp => v.yp
  | .ct => v.ct
  | .dp => v.dp

def ofFn (f : Coordinate → α) : PhaseVector α := ⟨f .x, f .xp, f .y, f .yp, f .ct, f .dp⟩

def fill (a : α) : PhaseVector α := ⟨a, a, a, a, a, a⟩

def map (f : α → β) (v : PhaseVector α) : PhaseVector β := ⟨f v.x, f v.xp, f v.y, f v.yp, f v.ct, f v.dp⟩

def zipWith (f : α → β → γ) (v : PhaseVector α) (w : PhaseVector β) : PhaseVector γ :=
  ⟨f v.x w.x, f v.xp w.xp, f v.y w.y, f v.yp w.yp, f v.ct w.ct, f v.dp w.dp⟩

def toList (v : PhaseVector α) : List α := [v.x, v.xp, v.y, v.yp, v.ct, v.dp]

def ofList? : List α → Option (PhaseVector α)
  | [x, xp, y, yp, ct, dp] => some ⟨x, xp, y, yp, ct, dp⟩
  | _ => none

def modify (v : PhaseVector α) (c : Coordinate) (f : α → α) : PhaseVector α :=
  ofFn fun d => if d = c then f (v.get d) else v.get d

@[simp] theorem get_ofFn (f : Coordinate → α) (c : Coordinate) : (ofFn f).get c = f c := by
  cases c <;> rfl

theorem ext_get {v w : PhaseVector α} (h : ∀ c, v.get c = w.get c) : v = w :=
  PhaseVector.ext (h .x) (h .xp) (h .y) (h .yp) (h .ct) (h .dp)

@[simp] theorem get_fill (a : α) (c : Coordinate) : (fill a).get c = a := by
  cases c <;> rfl

@[simp] theorem get_map (f : α → β) (v : PhaseVector α) (c : Coordinate) : (v.map f).get c = f (v.get c) := by
  cases c <;> rfl

@[simp] theorem get_zipWith (f : α → β → γ) (v : PhaseVector α) (w : PhaseVector β) (c : Coordinate) :
    (v.zipWith f w).get c = f (v.get c) (w.get c) := by
  cases c <;> rfl

@[simp] theorem get_modify (v : PhaseVector α) (c d : Coordinate) (f : α → α) :
    (v.modify c f).get d = if d = c then f (v.get d) else v.get d := by
  simp [modify]

theorem toList_eq (v : PhaseVector α) : v.toList = Coordinate.all.map v.get := rfl

@[simp] theorem ofList?_toList (v : PhaseVector α) : ofList? v.toList = some v := rfl

variable [Scalar α]

instance : Zero (PhaseVector α) := ⟨fill 0⟩

instance : Add (PhaseVector α) := ⟨zipWith (· + ·)⟩

instance : Sub (PhaseVector α) := ⟨zipWith (· - ·)⟩

def dot (v w : PhaseVector α) : α :=
  v.x * w.x + v.xp * w.xp + v.y * w.y + v.yp * w.yp + v.ct * w.ct + v.dp * w.dp

def isFinite (v : PhaseVector α) : Bool := v.toList.all Scalar.isFinite

@[simp] theorem get_zero (c : Coordinate) : (0 : PhaseVector α).get c = 0 := get_fill 0 c

@[simp] theorem get_add (v w : PhaseVector α) (c : Coordinate) : (v + w).get c = v.get c + w.get c :=
  get_zipWith _ v w c

@[simp] theorem get_sub (v w : PhaseVector α) (c : Coordinate) : (v - w).get c = v.get c - w.get c :=
  get_zipWith _ v w c

end PhaseVector

/-- A linear map of phase space, row by row: `m.x.xp` takes `xp` to `x`. -/
abbrev TransferMap (α : Type) := PhaseVector (PhaseVector α)

namespace TransferMap

variable {α : Type} [Scalar α]

def identity : TransferMap α :=
  PhaseVector.ofFn fun row => PhaseVector.ofFn fun column => if row = column then 1 else 0

def act (m : TransferMap α) (v : PhaseVector α) : PhaseVector α := m.map fun row => row.dot v

def column (m : TransferMap α) (c : Coordinate) : PhaseVector α := m.map fun row => row.get c

def comp (m n : TransferMap α) : TransferMap α :=
  m.map fun row => PhaseVector.ofFn fun c => row.dot (column n c)

@[simp] theorem get_act (m : TransferMap α) (v : PhaseVector α) (c : Coordinate) :
    (m.act v).get c = (m.get c).dot v := by
  simp [act]

end TransferMap

end BeamOptics
