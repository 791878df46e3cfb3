import BeamOptics.Fault

/-!
# Power sources

A radio-frequency source drives elements at several places of a line.
-/

namespace BeamOptics

structure Source where
  name : String
  indexes : List Int
  deriving DecidableEq, Repr

namespace Source

def build (name : String) (indexes : List Int) : Except Fault Source :=
  if name = "" then .error .unnamedSource
  else if indexes.isEmpty then .error (.idleSource name)
  else .ok ⟨name, indexes⟩

/-- The first place that a source drives. -/
def firstIndex (s : Source) : Int := s.indexes.headD 0

/-- Puts a source behind all sources that do not come after it. -/
def place (s : Source) : List Source → List Source
  | [] => [s]
  | t :: rest => if s.firstIndex < t.firstIndex then s :: t :: rest else t :: place s rest

/-- Sources by their first place; those that share one keep their order. -/
def inLineOrder (sources : List Source) : List Source := sources.foldl (fun sorted s => place s sorted) []

theorem place_perm (s : Source) (sorted : List Source) : (place s sorted).Perm (s :: sorted) := by
  induction sorted with
  | nil => exact .refl _
  | cons t rest ih =>
    unfold place
    split
    · exact .refl _
    · exact (ih.cons t).trans (.swap s t rest)

theorem inLineOrder_append_singleton (sources : List Source) (s : Source) :
    inLineOrder (sources ++ [s]) = place s (inLineOrder sources) := by
  simp [inLineOrder]

end Source

end BeamOptics
