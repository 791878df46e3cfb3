import BeamOptics.Scalar
import BeamOptics.Decimal.Format

/-!
# Doubles as scalars

Binary floating point. Where an elementary function has no value, or leaves the range of doubles from a finite
argument, it says so; the four operations never do.
-/

namespace BeamOptics

namespace Double

/-- A function that is undefined at the infinities. -/
def bounded (f : Float → Float) (x : Float) : Except MathFault Float :=
  if x.isInf then .error .domain else .ok (f x)

/-- A function whose value at a finite argument has to be finite. -/
def ranged (fault : MathFault) (f : Float → Float) (x : Float) : Except MathFault Float :=
  if (f x).isInf && x.isFinite then .error fault else .ok (f x)

def ceil (x : Float) : Except MathFault Int :=
  match Binary.ofFloat x with
  | .nan => .error .nanToInteger
  | .infinite _ => .error .infinityToInteger
  | .finite negative mantissa exponent => .ok (Binary.ceiling negative mantissa exponent)

def pi : Float := 3.141592653589793

end Double

instance : Scalar Float where
  zero := 0
  one := 1
  ofNat n := Decimal.toFloat false n 0
  lt a b := a < b
  le a b := a ≤ b
  beq a b := a == b
  isFinite := Float.isFinite
  sqrt := Float.sqrt
  cos := Double.bounded Float.cos
  sin := Double.bounded Float.sin
  cosh := Double.ranged .range Float.cosh
  sinh := Double.ranged .range Float.sinh
  cube := Double.ranged .powerOverflow fun x => x.pow 3
  ceil := Double.ceil
  radiation := 8.846e-5 / (2 * Double.pi)

end BeamOptics
