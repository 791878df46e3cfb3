import BeamOptics.Decimal.Binary

/-!
# Decimal text

Decimal text of doubles: a fixed count of digits in scientific or general form, and the fewest digits that
read back. All of it works on exact quotients; a half goes to the even digit.
-/

namespace BeamOptics

namespace Decimal

/-- Nearest whole number to a quotient, a half to the even side. -/
def roundDiv (n d : Nat) : Nat :=
  let q := n / d
  let r := n % d
  if 2 * r > d ∨ (2 * r = d ∧ q % 2 = 1) then q + 1 else q

def shift (n d : Nat) (k : Int) : Nat × Nat :=
  if 0 ≤ k then (n, d * Nat.pow 10 k.toNat) else (n * Nat.pow 10 (-k).toNat, d)

def digitCount (n : Nat) : Nat := (Nat.toDigits 10 n).length

/-- The exponent `k` with `10 ^ k ≤ n / d < 10 ^ (k + 1)`, for a positive quotient. -/
def magnitude (n d : Nat) : Int :=
  let k : Int := digitCount n - digitCount d
  let (n', d') := shift n d k
  if d' ≤ n' then k else k - 1

/-- The quotient to `places + 1` significant digits: the digits as a number, and the exponent of the first. -/
def significant (n d places : Nat) : Nat × Int :=
  let k := magnitude n d
  let (n', d') := shift n d (k - places)
  let digits := roundDiv n' d'
  if digits = Nat.pow 10 (places + 1) then (Nat.pow 10 places, k + 1) else (digits, k)

def digitText (n : Nat) : String := String.ofList (Nat.toDigits 10 n)

def exponentText (k : Int) : String :=
  let digits := digitText k.natAbs
  (if k < 0 then "-" else "+") ++ (if digits.length < 2 then "0" ++ digits else digits)

def pointed (digits : List Char) (whole : Nat) : String :=
  let tail := digits.drop whole
  String.ofList (digits.take whole ++ (if tail.isEmpty then [] else '.' :: tail))

def zeros (n : Nat) : List Char := List.replicate n '0'

def dropTrailingZeros (digits : List Char) : List Char := (digits.reverse.dropWhile (· == '0')).reverse

def positional (digits : List Char) (k : Int) : String :=
  if k < 0 then "0." ++ String.ofList (zeros (-k - 1).toNat ++ digits)
  else
    let whole := k.toNat + 1
    pointed (digits ++ zeros (whole - digits.length)) whole

def signed (negative : Bool) (text : String) : String := if negative then "-" ++ text else text

/-- Scientific form with a fixed count of places. -/
def scientific (x : Float) (places : Nat) : String :=
  match Binary.ofFloat x with
  | .nan => "nan"
  | .infinite negative => signed negative "inf"
  | .finite negative 0 _ => signed negative (pointed (zeros (places + 1)) 1 ++ "e+00")
  | .finite negative mantissa exponent =>
    let (n, d) := Binary.quotient mantissa exponent
    let (digits, k) := significant n d places
    signed negative (pointed (Nat.toDigits 10 digits) 1 ++ "e" ++ exponentText k)

/-- General form: at most `precision` significant digits, no trailing zeros, positional for exponents
from -4 up to the precision. -/
def general (x : Float) (precision : Nat) : String :=
  match Binary.ofFloat x with
  | .nan => "nan"
  | .infinite negative => signed negative "inf"
  | .finite negative 0 _ => signed negative "0"
  | .finite negative mantissa exponent =>
    let (n, d) := Binary.quotient mantissa exponent
    let (digits, k) := significant n d (precision - 1)
    let kept := dropTrailingZeros (Nat.toDigits 10 digits)
    signed negative
      (if -4 ≤ k ∧ k < precision then positional kept k else pointed kept 1 ++ "e" ++ exponentText k)

def toFloat (negative : Bool) (mantissa : Nat) (exponent : Int) : Float :=
  let size : Int := digitCount mantissa + exponent
  let value : Float :=
    if mantissa = 0 ∨ size < -400 then 0
    else if 400 < size then 1 / 0
    else if exponent < 0 then Float.ofScientific mantissa true (-exponent).toNat
    else Float.ofScientific mantissa false exponent.toNat
  if negative then -value else value

def ofInt (i : Int) : Float := toFloat (i < 0) i.natAbs 0

/-- The two neighbours of the value on the grid of `places + 1` significant digits, the nearer one first. -/
def neighbours (n d places : Nat) : List (Nat × Int) :=
  let k := magnitude n d
  let (n', d') := shift n d (k - places)
  let near := roundDiv n' d'
  let far := if near = n' / d' then near + 1 else n' / d'
  [(near, k - places), (far, k - places)]

/-- The fewest digits that read back as `x`, for a positive finite `x`, as digits and an exponent. -/
def shortestDigits (x : Float) (n d : Nat) : Nat × Int :=
  ((List.range 17).findSome? fun places =>
    (neighbours n d places).find? fun c => (toFloat false c.1 c.2).toBits == x.toBits).getD (0, 0)

/-- The fewest digits that read back: positional below `10 ^ 16` and from `10 ^ -4`, whole numbers with `.0`. -/
def shortest (x : Float) : String :=
  match Binary.ofFloat x with
  | .nan => "nan"
  | .infinite negative => signed negative "inf"
  | .finite negative 0 _ => signed negative "0.0"
  | .finite negative mantissa exponent =>
    let (n, d) := Binary.quotient mantissa exponent
    let (digits, e) := shortestDigits x.abs n d
    let all := Nat.toDigits 10 digits
    let k : Int := e + all.length - 1
    let kept := dropTrailingZeros all
    signed negative
      (if -4 ≤ k ∧ k < 16 then
        let text := positional kept k
        if k + 1 < kept.length then text else text ++ ".0"
      else pointed kept 1 ++ "e" ++ exponentText k)

end Decimal

end BeamOptics
