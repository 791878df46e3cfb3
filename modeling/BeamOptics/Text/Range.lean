/-!
# Ranges of characters
-/

namespace BeamOptics

namespace Text

/-- True for a character with its code point in one of the closed ranges. -/
def inRanges (ranges : List (Nat × Nat)) (c : Char) : Bool :=
  ranges.any fun range => range.1 ≤ c.toNat && c.toNat ≤ range.2

/-- Code point of a character under the first run that has it: first, last, stride and shift of each run. -/
def shiftedBy (runs : List (Nat × Nat × Nat × Int)) (c : Char) : Nat :=
  match runs.find? fun (first, last, stride, _) => first ≤ c.toNat && c.toNat ≤ last && (c.toNat - first) % stride == 0 with
  | some (_, _, _, shift) => (c.toNat + shift).toNat
  | none => c.toNat

end Text

end BeamOptics
