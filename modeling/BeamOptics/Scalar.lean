/-!
# Scalars

The numbers a beamline is computed in. Every formula is written once over this class: the program takes
binary floating point, exact statements take the reals. Comparisons are Boolean, so that an unordered value
fails them all.
-/

namespace BeamOptics

/-- How an elementary function can refuse its argument. -/
inductive MathFault
  | domain
  | range
  | powerOverflow
  | divisionByZero
  | infinityToInteger
  | nanToInteger
  deriving DecidableEq, Repr

class Scalar (α : Type) extends Add α, Sub α, Mul α, Div α, Neg α, Zero α, One α where
  ofNat : Nat → α
  lt : α → α → Bool
  le : α → α → Bool
  beq : α → α → Bool
  isFinite : α → Bool
  sqrt : α → α
  cos : α → Except MathFault α
  sin : α → Except MathFault α
  cosh : α → Except MathFault α
  sinh : α → Except MathFault α
  cube : α → Except MathFault α
  ceil : α → Except MathFault Int
  /-- Classical radiation constant of electrons over a full turn, in m / GeV³. -/
  radiation : α

namespace Scalar

variable {α : Type} [Scalar α]

def two : α := ofNat 2

def six : α := ofNat 6

def square (a : α) : α := a * a

def sum (values : List α) : α := values.foldl (· + ·) 0

def overCount (a : α) (n : Nat) : Except MathFault α :=
  if n = 0 then .error .divisionByZero else .ok (a / ofNat n)

theorem overCount_of_ne_zero {n : Nat} (h : n ≠ 0) (a : α) : overCount a n = .ok (a / ofNat n) := if_neg h

theorem ne_zero_of_overCount {n : Nat} {a share : α} (h : overCount a n = .ok share) : n ≠ 0 := by
  rintro rfl
  cases h

@[simp] theorem sum_nil : sum ([] : List α) = 0 := rfl

end Scalar

end BeamOptics
