import BeamOptics.Fault
import BeamOptics.PhaseVector

/-!
# Bunches

Particles advanced together: phase-space vectors in order, with a common reference momentum in GeV/c and a charge
per macroparticle. Particle 0 of a probe bunch is the reference particle.
-/

namespace BeamOptics

structure Bunch (α : Type) where
  momentum : α
  charge : α
  particles : List (PhaseVector α)

/-- A list index counted from the front, or from the back if it is negative. -/
def position? (index : Int) (size : Nat) : Option Nat :=
  if 0 ≤ index then (if index < size then some index.toNat else none)
  else (if -index ≤ size then some (size - (-index).toNat) else none)

namespace Bunch

variable {α : Type}

def size (b : Bunch α) : Nat := b.particles.length

def firstParticle (b : Bunch α) : Except Fault (PhaseVector α) :=
  match b.particles with
  | [] => .error .emptyBunch
  | v :: _ => .ok v

def append (b : Bunch α) (v : PhaseVector α) : Bunch α := { b with particles := b.particles ++ [v] }

def particle (b : Bunch α) (index : Int) : Except Fault (PhaseVector α) :=
  match (position? index b.size).bind (b.particles[·]?) with
  | some v => .ok v
  | none => .error (.rowOutside index b.size)

def setParticle (b : Bunch α) (index : Int) (v : PhaseVector α) : Except Fault (Bunch α) :=
  match position? index b.size with
  | some i => .ok { b with particles := b.particles.set i v }
  | none => .error (.rowOutside index b.size)

def mapParticles (b : Bunch α) (f : PhaseVector α → PhaseVector α) : Bunch α :=
  { b with particles := b.particles.map f }

@[simp] theorem size_mapParticles (b : Bunch α) (f : PhaseVector α → PhaseVector α) :
    (b.mapParticles f).size = b.size := by
  simp [size, mapParticles]

variable [Scalar α]

def make (momentum charge : α) (particles : List (PhaseVector α)) : Except Fault (Bunch α) :=
  if Scalar.le momentum 0 then .error .momentumNotPositive else .ok ⟨momentum, charge, particles⟩

/-- Equal particles at one vector. -/
def ofVector (v : PhaseVector α) (momentum charge : α) (copies : Nat) : Except Fault (Bunch α) :=
  make momentum charge (List.replicate copies v)

/-- A copy is a bunch made anew, so its momentum is looked at again. -/
def copy (b : Bunch α) : Except Fault (Bunch α) := make b.momentum b.charge b.particles

def mean (particles : List (PhaseVector α)) (c : Coordinate) : α :=
  Scalar.sum (particles.map fun v => v.get c) / Scalar.ofNat particles.length

def centroid (b : Bunch α) : Except Fault (PhaseVector α) :=
  if b.particles.isEmpty then .error .emptyBunch else .ok (PhaseVector.ofFn (mean b.particles))

theorem make_eq_ok_iff {momentum charge : α} {particles : List (PhaseVector α)} {b : Bunch α} :
    make momentum charge particles = .ok b ↔
      Scalar.le momentum 0 = false ∧ b = ⟨momentum, charge, particles⟩ := by
  unfold make
  cases h : Scalar.le momentum 0 <;> simp [eq_comm]

theorem copy_eq_ok_iff {b c : Bunch α} : b.copy = .ok c ↔ Scalar.le b.momentum 0 = false ∧ c = b :=
  make_eq_ok_iff

end Bunch

end BeamOptics
