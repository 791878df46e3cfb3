/-!
# Segments

Closed ranges of element indexes along a beamline.
-/

namespace BeamOptics

structure Segment where
  first : Nat
  last : Nat
  ordered : first ≤ last := by omega
  deriving DecidableEq, Repr

namespace Segment

def length (s : Segment) : Nat := s.last - s.first + 1

def startsAtOrigin (s : Segment) : Bool := s.first == 0

def text (s : Segment) : String := s!"[{s.first}, {s.last}]"

/-- The segment between two indexes, if they are indexes and in order. -/
def between? (first last : Int) : Option Segment :=
  if h : 0 ≤ first ∧ first ≤ last then some ⟨first.toNat, last.toNat, by omega⟩ else none

theorem between?_eq_some_iff {first last : Int} {s : Segment} :
    between? first last = some s ↔ first = s.first ∧ last = s.last := by
  obtain ⟨a, b, hab⟩ := s
  unfold between?
  constructor
  · intro h
    split at h
    · simp only [Option.some.injEq, Segment.mk.injEq] at h
      simp only
      omega
    · simp at h
  · rintro ⟨rfl, rfl⟩
    simp only at *
    rw [dif_pos (by omega)]
    simp

end Segment

end BeamOptics
