/-!
# Binary numbers

A double as an exact binary number, and the exact operations that its text and its order need.
-/

namespace BeamOptics

/-- What a double stands for: `mantissa * 2 ^ exponent` with a sign, an infinity, or nothing. -/
inductive Binary
  | nan
  | infinite (negative : Bool)
  | finite (negative : Bool) (mantissa : Nat) (exponent : Int)
  deriving DecidableEq, Repr

namespace Binary

def ofFloat (x : Float) : Binary :=
  let bits := x.toBits.toNat
  let negative : Bool := bits / Nat.pow 2 63 = 1
  let biased : Nat := bits / Nat.pow 2 52 % Nat.pow 2 11
  let fraction : Nat := bits % Nat.pow 2 52
  if biased = 2047 then
    if fraction = 0 then infinite negative else nan
  else if biased = 0 then finite negative fraction (-1074)
  else finite negative (fraction + Nat.pow 2 52) ((biased : Int) - 1075)

def quotient (mantissa : Nat) (exponent : Int) : Nat × Nat :=
  if 0 ≤ exponent then (mantissa * Nat.pow 2 exponent.toNat, 1) else (mantissa, Nat.pow 2 (-exponent).toNat)

def truncate (negative : Bool) (mantissa : Nat) (exponent : Int) : Int :=
  let (n, d) := quotient mantissa exponent
  if negative then -((n / d : Nat) : Int) else (n / d : Nat)

/-- The least whole number that is not below. -/
def ceiling (negative : Bool) (mantissa : Nat) (exponent : Int) : Int :=
  let (n, d) := quotient mantissa exponent
  if negative then -((n / d : Nat) : Int) else ((n + d - 1) / d : Nat)

def isWhole : Binary → Bool
  | finite _ mantissa exponent =>
    let (n, d) := quotient mantissa exponent
    n % d = 0
  | _ => false

/-- Exact comparison with a whole number; `none` for a NaN. -/
def compareInt (b : Binary) (i : Int) : Option Ordering :=
  match b with
  | nan => none
  | infinite negative => some (if negative then .lt else .gt)
  | finite negative mantissa exponent =>
    let (n, d) := quotient mantissa exponent
    let n : Int := if negative then -n else n
    some (compare n (i * d))

end Binary

end BeamOptics
