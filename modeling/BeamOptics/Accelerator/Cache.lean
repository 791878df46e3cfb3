import BeamOptics.Beam.Bunch

/-!
# Cached states

One bunch per beam state, with the index of the last element it has passed.
-/

namespace BeamOptics

structure CachedBunch (α : Type) where
  /-- The last element passed, if any. -/
  location : Option Nat
  bunch : Bunch α
  /-- The bunch as it was created. -/
  initial : Bunch α

namespace CachedBunch

variable {α : Type}

def fresh (b : Bunch α) : CachedBunch α := ⟨none, b, b⟩

def rewound (entry : CachedBunch α) : CachedBunch α := { entry with location := none, bunch := entry.initial }

def advanced (entry : CachedBunch α) (location : Nat) (b : Bunch α) : CachedBunch α :=
  { entry with location := some location, bunch := b }

def isPast (entry : CachedBunch α) (first : Nat) : Bool :=
  match entry.location with
  | some k => first ≤ k
  | none => false

def next (entry : CachedBunch α) : Nat :=
  match entry.location with
  | some k => k + 1
  | none => 0

def isAt (entry : CachedBunch α) (first : Nat) : Bool := entry.next == first

end CachedBunch

end BeamOptics
