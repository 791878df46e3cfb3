import BeamOptics.Datum
import BeamOptics.Decimal.Double
import BeamOptics.Decimal.Numeral
import BeamOptics.Pattern.Matching
import BeamOptics.Pattern.Reading

/-!
# Plain scalars

What a scalar without quotes stands for: a truth value, a number, a date, nothing, or its own text. Numbers may hold
underscores; colons separate digits to the base sixty.
-/

namespace BeamOptics

namespace Document

namespace PlainScalar

def nullWords : List String := ["", "~", "null", "Null", "NULL"]

def trueWords : List String := ["yes", "Yes", "YES", "true", "True", "TRUE", "on", "On", "ON"]

def falseWords : List String := ["no", "No", "NO", "false", "False", "FALSE", "off", "Off", "OFF"]

def binaryForm : String := "[-+]?0b[0-1_]+"

/-- A leading zero makes a number octal. -/
def octalForm : String := "[-+]?0[0-7_]+"

def decimalForm : String := "[-+]?(?:0|[1-9][0-9_]*)"

def hexForm : String := "[-+]?0x[0-9a-fA-F_]+"

def sixtiethForm : String := "[-+]?[1-9][0-9_]*(?::[0-5]?[0-9])+"

/-- A point is needed, and a sign in the exponent. -/
def pointForms : List String :=
  ["[-+]?[0-9][0-9_]*\\.[0-9_]*(?:[eE][-+][0-9]+)?", "\\.[0-9][0-9_]*(?:[eE][-+][0-9]+)?"]

def sixtiethPointForm : String := "[-+]?[0-9][0-9_]*(?::[0-5]?[0-9])+\\.[0-9_]*"

def infinityForm : String := "[-+]?\\.(?:inf|Inf|INF)"

def nanForm : String := "\\.(?:nan|NaN|NAN)"

def dateForm : String := "[0-9][0-9][0-9][0-9]-[0-9][0-9]-[0-9][0-9]"

def timeForm : String :=
  "[0-9][0-9][0-9][0-9]-[0-9][0-9]?-[0-9][0-9]?(?:[Tt]|[ \\t]+)[0-9][0-9]?:[0-9][0-9]:[0-9][0-9](?:\\.[0-9]*)?" ++
    "(?:[ \\t]*(?:Z|[-+][0-9][0-9]?(?::[0-9][0-9])?))?"

def hasForm (text form : String) : Bool := (Pattern.read? form).any fun node => node.fullMatch text

def digitValue (c : Char) : Nat :=
  if c.isDigit then c.toNat - 48 else if 'a' ≤ c then c.toNat - 87 else c.toNat - 55

def valueTo (base : Nat) (digits : List Char) : Nat := digits.foldl (fun n c => base * n + digitValue c) 0

def bare (text : String) : Bool × List Char := Numeral.sign (text.toList.filter (· ≠ '_'))

def signedInt (negative : Bool) (n : Nat) : Int := if negative then -(n : Int) else n

def parts (cs : List Char) : List (List Char) := ((String.ofList cs).splitOn ":").map String.toList

def int? (text : String) : Option Int :=
  let (negative, cs) := bare text
  if hasForm text binaryForm then some (signedInt negative (valueTo 2 (cs.drop 2)))
  else if hasForm text octalForm then some (signedInt negative (valueTo 8 cs))
  else if hasForm text decimalForm then some (signedInt negative (valueTo 10 cs))
  else if hasForm text hexForm then some (signedInt negative (valueTo 16 (cs.drop 2)))
  else if hasForm text sixtiethForm then
    some (signedInt negative ((parts cs).foldl (fun n digits => 60 * n + valueTo 10 digits) 0))
  else none

/-- Sum of parts to the base sixty, the last part first. -/
def sixtiethSum : List Float → Float → Float → Float
  | [], _, sum => sum
  | part :: rest, base, sum => sixtiethSum rest (base * 60) (sum + part * base)

def signedFloat (negative : Bool) (x : Float) : Float := if negative then -x else x

def float? (text : String) : Option Float :=
  let (negative, cs) := bare text
  if pointForms.any (hasForm text) then Numeral.decimal? negative cs
  else if hasForm text sixtiethPointForm then
    let values := (parts cs).map fun digits => (Numeral.decimal? false digits).getD 0
    some (signedFloat negative (sixtiethSum values.reverse 1 0))
  else if hasForm text infinityForm then some (signedFloat negative (1 / 0))
  else if hasForm text nanForm then some (0 / 0)
  else none

def read (text : String) : Datum :=
  if nullWords.contains text then .null
  else if trueWords.contains text then .bool true
  else if falseWords.contains text then .bool false
  else
    match float? text, int? text with
    | some x, _ => .float x
    | none, some i => .int i
    | none, none =>
      if hasForm text dateForm then .other "date"
      else if hasForm text timeForm then .other "datetime"
      else .text text

end PlainScalar

end Document

end BeamOptics
