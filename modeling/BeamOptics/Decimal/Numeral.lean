import BeamOptics.Decimal.Format

/-!
# Numerals

Numbers written as text: signs, digits with single underscores between them, blanks around.
-/

namespace BeamOptics

namespace Numeral

def isBlank (c : Char) : Bool :=
  let n := c.toNat
  (9 ≤ n && n ≤ 13) || n == 0x20 || n == 0x85 || n == 0xA0 || n == 0x1680 || (0x2000 ≤ n && n ≤ 0x200A) ||
    n == 0x2028 || n == 0x2029 || n == 0x202F || n == 0x205F || n == 0x3000

def trim (cs : List Char) : List Char := ((cs.dropWhile isBlank).reverse.dropWhile isBlank).reverse

def value (digits : List Char) : Nat := digits.foldl (fun n c => 10 * n + (c.toNat - '0'.toNat)) 0

/-- Drops underscores that stand between two digits; any other underscore stays. -/
def joinDigits : List Char → List Char
  | a :: '_' :: b :: rest =>
    if a.isDigit && b.isDigit then a :: joinDigits (b :: rest) else a :: '_' :: joinDigits (b :: rest)
  | c :: rest => c :: joinDigits rest
  | [] => []

def sign : List Char → Bool × List Char
  | '-' :: rest => (true, rest)
  | '+' :: rest => (false, rest)
  | cs => (false, cs)

/-- A whole number; a fraction of zeros is allowed. -/
def int? (text : String) : Option Int :=
  let (negative, cs) := sign (joinDigits (trim text.toList))
  let digits := cs.takeWhile Char.isDigit
  let rest := cs.dropWhile Char.isDigit
  let whole : Bool :=
    match rest with
    | [] => true
    | '.' :: zeros => !zeros.isEmpty && zeros.all (· == '0')
    | _ => false
  if digits.isEmpty || !whole then none
  else some (if negative then -(value digits : Int) else value digits)

/-- Reads digits, a point, digits and an exponent, with a digit on at least one side of the point. -/
def decimal? (negative : Bool) (cs : List Char) : Option Float :=
  let whole := cs.takeWhile Char.isDigit
  let rest := cs.dropWhile Char.isDigit
  let (fraction, rest) :=
    match rest with
    | '.' :: rest => (rest.takeWhile Char.isDigit, rest.dropWhile Char.isDigit)
    | _ => ([], rest)
  let exponent : Option Int :=
    match rest with
    | [] => some 0
    | e :: rest =>
      if e == 'e' || e == 'E' then
        let (below, digits) := sign rest
        if digits.isEmpty || !digits.all Char.isDigit then none
        else some (if below then -(value digits : Int) else value digits)
      else none
  match exponent with
  | none => none
  | some exponent =>
    if whole.isEmpty && fraction.isEmpty then none
    else some (Decimal.toFloat negative (value (whole ++ fraction)) (exponent - fraction.length))

/-- A number in decimal or exponent form, an infinity or a NaN, whatever the case of the letters. -/
def float? (text : String) : Option Float :=
  let (negative, cs) := sign (joinDigits (trim text.toList))
  let word := String.ofList (cs.map Char.toLower)
  if word = "inf" ∨ word = "infinity" then some (if negative then -1 / 0 else 1 / 0)
  else if word = "nan" then some (0 / 0)
  else decimal? negative cs

end Numeral

end BeamOptics
