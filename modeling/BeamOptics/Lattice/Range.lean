import BeamOptics.Lattice.Element

/-!
# Ranges

A contiguous part of a beamline: its elements, and the index of the first of them in the line.
-/

namespace BeamOptics

structure Range (α : Type) where
  first : Nat
  elements : List (Element α)

/-- How a range is written in records. -/
def Segment.rangeText (s : Segment) : String :=
  s!"BeamlineRange([{s.first}, {s.last}], {s.length} elements)"

namespace Range

variable {α : Type}

def last (r : Range α) : Nat := r.first + (r.elements.length - 1)

def span (r : Range α) : Segment := ⟨r.first, r.last, Nat.le_add_right _ _⟩

/-- Elements with their indexes in the line. -/
def items (r : Range α) : List (Nat × Element α) := r.elements.zipIdx r.first |>.map Prod.swap

/-- The element at an index of the line. -/
def at? (r : Range α) (index : Nat) : Option (Element α) :=
  if r.first ≤ index then r.elements[index - r.first]? else none

def totalLength [Scalar α] (r : Range α) : α := Element.totalLength r.elements

end Range

end BeamOptics
