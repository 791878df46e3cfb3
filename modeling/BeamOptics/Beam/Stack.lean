import BeamOptics.Beam.Bunch
import BeamOptics.Nested

/-!
# Bunches from arrays

A bunch is made from an array of numbers. A two-dimensional array with six columns gives its rows as particles. An
array with further axes and six entries along its second axis is kept as a stack: it can be looked at and copied,
but its particles are no phase-space vectors.
-/

namespace BeamOptics

structure Stack (α : Type) where
  momentum : α
  charge : α
  items : List (Nested α)

/-- What an array of particles turns into. -/
inductive Load (α : Type) where
  | table (bunch : Bunch α)
  | stack (stack : Stack α)

namespace Stack

variable {α : Type} [Scalar α]

def copy (s : Stack α) : Except Fault (Stack α) :=
  if Scalar.le s.momentum 0 then .error .momentumNotPositive else .ok s

def centroid (s : Stack α) : Except Fault (Nested α) :=
  match s.items with
  | [] => .error .emptyBunch
  | item :: rest =>
    let total := rest.foldl (Nested.zipWith (· + ·)) item
    .ok (total.map (· / Scalar.ofNat s.items.length))

def particle (s : Stack α) (index : Int) : Except Fault (Nested α) :=
  match (position? index s.items.length).bind (s.items[·]?) with
  | some item => .ok item
  | none => .error (.rowOutside index s.items.length)

def firstParticle (s : Stack α) : Except Fault (Nested α) :=
  match s.items with
  | [] => .error .emptyBunch
  | item :: _ => .ok item

def itemShape (s : Stack α) : List Nat :=
  match s.items with
  | [] => []
  | item :: _ => item.shape

/-- A vector goes into an item when the last axis has six entries, and then along every axis before it. -/
def setParticle (s : Stack α) (index : Int) (v : PhaseVector α) : Except Fault (Stack α) :=
  match position? index s.items.length with
  | none => .error (.rowOutside index s.items.length)
  | some i =>
    if s.itemShape.getLast? = some 6 then
      let row := Nested.ofList v.toList
      let item := (s.itemShape.dropLast.reverse).foldl (fun inner n => Nested.node (List.replicate n inner)) row
      .ok { s with items := s.items.set i item }
    else .error (.unfitShape s.itemShape)

def append (s : Stack α) (_ : PhaseVector α) : Except Fault (Stack α) :=
  .error (.unequalDimensions (s.itemShape.length + 1))

end Stack

namespace Nested

variable {α : Type}

/-- Reads a phase-space vector, or says what shape was found instead. -/
def phaseVector (fault : List Nat → Fault) (a : Nested α) : Except Fault (PhaseVector α) :=
  match a.shape? with
  | none => .error (.irregularArray a.shape)
  | some shape =>
    match a.toList?.bind PhaseVector.ofList? with
    | some v => .ok v
    | none => .error (fault shape)

def row? (a : Nested α) : Option (PhaseVector α) := a.toList?.bind PhaseVector.ofList?

def transferMap (element : String) (a : Nested α) : Except Fault (TransferMap α) :=
  match a.shape? with
  | none => .error (.irregularArray a.shape)
  | some _ =>
    match (a.items.mapM row?).bind PhaseVector.ofList? with
    | some m => .ok m
    | none => .error (.mapShape element)

end Nested

namespace Load

variable {α : Type} [Scalar α]

/-- Makes a bunch from an array. Empty arrays of any shape give an empty bunch, a single row gives one particle. -/
def ofArray (momentum charge : α) (a : Nested α) : Except Fault (Load α) := do
  if Scalar.le momentum 0 then throw .momentumNotPositive
  match a.shape? with
  | none => throw (.irregularArray a.shape)
  | some [] => throw .scalarParticles
  | some shape =>
    if a.leaves.isEmpty then pure (.table ⟨momentum, charge, []⟩)
    else
      match shape with
      | [n] =>
        match a.row? with
        | some v => pure (.table ⟨momentum, charge, [v]⟩)
        | none => throw (.coordinateCount [1, n])
      | _ :: 6 :: inner =>
        if inner.isEmpty then
          match a.items.mapM Nested.row? with
          | some rows => pure (.table ⟨momentum, charge, rows⟩)
          | none => throw (.coordinateCount shape)
        else pure (.stack ⟨momentum, charge, a.items⟩)
      | _ => throw (.coordinateCount shape)

def copy : Load α → Except Fault (Load α)
  | table b => b.copy.map table
  | stack s => s.copy.map stack

def size : Load α → Nat
  | table b => b.size
  | stack s => s.items.length

def momentum : Load α → α
  | table b => b.momentum
  | stack s => s.momentum

def charge : Load α → α
  | table b => b.charge
  | stack s => s.charge

def vector (v : PhaseVector α) : Nested α := Nested.ofList v.toList

def items : Load α → List (Nested α)
  | table b => b.particles.map vector
  | stack s => s.items

def centroid : Load α → Except Fault (Nested α)
  | table b => b.centroid.map vector
  | stack s => s.centroid

def firstParticle : Load α → Except Fault (Nested α)
  | table b => b.firstParticle.map vector
  | stack s => s.firstParticle

def particle (l : Load α) (index : Int) : Except Fault (Nested α) :=
  match l with
  | table b => (b.particle index).map vector
  | stack s => s.particle index

def setParticle (l : Load α) (index : Int) (v : PhaseVector α) : Except Fault (Load α) :=
  match l with
  | table b => (b.setParticle index v).map table
  | stack s => (s.setParticle index v).map stack

def append (l : Load α) (v : PhaseVector α) : Except Fault (Load α) :=
  match l with
  | table b => .ok (table (b.append v))
  | stack s => (s.append v).map stack

def bunch : Load α → Except Fault (Bunch α)
  | table b => .ok b
  | stack _ => .error .stackedBunch

end Load

end BeamOptics
