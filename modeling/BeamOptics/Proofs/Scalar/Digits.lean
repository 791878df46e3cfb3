import BeamOptics.Scalar

/-!
# Whole numbers as scalars

Scalars that compute by hand. They are for small machines, whose runs can be read off.
-/

namespace BeamOptics

namespace SmallMachine

/-- Whole numbers that count as finite as long as they have one digit. -/
instance digits : Scalar Int where
  zero := 0
  one := 1
  ofNat n := n
  lt a b := a < b
  le a b := a ≤ b
  beq a b := a == b
  isFinite a := a.natAbs < 10
  sqrt a := a
  cos _ := .ok 1
  sin a := .ok a
  cosh _ := .ok 1
  sinh a := .ok a
  cube a := .ok (a * a * a)
  ceil a := .ok a
  radiation := 0

end SmallMachine

end BeamOptics
