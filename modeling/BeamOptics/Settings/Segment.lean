import BeamOptics.Form

/-!
# Segments from untyped values
-/

namespace BeamOptics

namespace Segment

def atLeastZero : Rule Int := Rule.int.only (0 ≤ ·) .greaterThanEqual

structure Bounds where
  first : Int := 0
  last : Int := 0

def finish (bounds : Bounds) : Except String Segment :=
  match between? bounds.first bounds.last with
  | some segment => .ok segment
  | none => .error s!"Segment first index {bounds.first} exceeds last index {bounds.last}"

def form : Form Bounds Segment where
  title := "Segment"
  home := "ringtrack.simulators.types"
  blank := { }
  fields := [
    .of "first" true atLeastZero fun first b => { b with first },
    .of "last" true atLeastZero fun last b => { b with last }]
  finish := finish

/-- A segment does not change: assignment to a field is refused before its name is looked at. -/
def assign (_ : Segment) (field : String) : Except Fault Segment :=
  .error (.validation form.title [⟨field, .frozenInstance⟩])

def ofBounds (first last : Datum) : Except Fault Segment := form.read [("first", first), ("last", last)]

def pairOf (d : Datum) : Except Fault (Datum × Datum) :=
  match d.parts with
  | .error typeName => .error (.indivisible typeName)
  | .ok [first, last] => .ok (first, last)
  | .ok parts => .error (if parts.length < 2 then .tooFewParts parts.length else .tooManyParts)

def ofPair (d : Datum) : Except Fault Segment := do
  let (first, last) ← pairOf d
  ofBounds first last

/-- The length of a segment as a count that a machine word can hold. -/
def count (s : Segment) : Except Fault Nat := if s.length < Nat.pow 2 63 then .ok s.length else .error .lengthOverflow

end Segment

end BeamOptics
