import BeamOptics.Decimal.Format
import BeamOptics.Text.Quoted

/-!
# Untyped values

Values as a settings document or a caller hands them over, before anything is known about their type: how they
are named, written, compared and taken as a truth value. Numbers are truth values, whole numbers and doubles; numbers of
further types, such as decimal or exact fractions, are left out.
-/

namespace BeamOptics

inductive Datum where
  | null
  | bool (value : Bool)
  | int (value : Int)
  | float (value : Float)
  | text (value : String)
  | list (items : List Datum)
  | mapping (entries : List (Datum × Datum))
  /-- A value of some further type, which is no number, and of which only the name of the type matters. -/
  | other (typeName : String)

instance : Inhabited Datum := ⟨.null⟩

namespace Datum

def typeName : Datum → String
  | null => "NoneType"
  | bool _ => "bool"
  | int _ => "int"
  | float _ => "float"
  | text _ => "str"
  | list _ => "list"
  | mapping _ => "dict"
  | other name => name

/-- Zero, nothing and everything empty count as false. -/
def isTrue : Datum → Bool
  | null => false
  | bool b => b
  | int i => i ≠ 0
  | float x => x != 0
  | text s => s ≠ ""
  | list items => !items.isEmpty
  | mapping entries => !entries.isEmpty
  | other _ => true

mutual

def literal : Datum → String
  | null => "None"
  | bool b => if b then "True" else "False"
  | int i => toString i
  | float x => Decimal.shortest x
  | text s => Text.quoted s
  | list items => "[" ++ ", ".intercalate (literalList items) ++ "]"
  | mapping entries => "\x7b" ++ ", ".intercalate (literalEntries entries) ++ "\x7d"
  | other name => name

def literalList : List Datum → List String
  | [] => []
  | item :: rest => literal item :: literalList rest

def literalEntries : List (Datum × Datum) → List String
  | [] => []
  | (key, value) :: rest => (literal key ++ ": " ++ literal value) :: literalEntries rest

end

/-- The value as it reads inside a sentence. -/
def display : Datum → String
  | text s => s
  | d => d.literal

inductive Number
  | whole (value : Int)
  | broken (value : Float)

def number? : Datum → Option Number
  | bool b => some (.whole (if b then 1 else 0))
  | int i => some (.whole i)
  | float x => some (.broken x)
  | _ => none

/-- Exact order of two numbers; `none` if one of them is a NaN. -/
def Number.compare : Number → Number → Option Ordering
  | whole a, whole b => some (Ord.compare a b)
  | broken x, whole b => Binary.compareInt (.ofFloat x) b
  | whole a, broken y => (Binary.compareInt (.ofFloat y) a).map Ordering.swap
  | broken x, broken y => if x < y then some .lt else if y < x then some .gt else if x == y then some .eq else none

mutual

def equal : Datum → Datum → Bool
  | null, null => true
  | text a, text b => a == b
  | list as, list bs => equalList as bs
  | mapping as, mapping bs => as.length == bs.length && equalEntries as bs
  | other a, other b => a == b
  | a, b =>
    match a.number?, b.number? with
    | some a, some b => a.compare b == some .eq
    | _, _ => false

def equalList : List Datum → List Datum → Bool
  | [], [] => true
  | a :: as, b :: bs => equal a b && equalList as bs
  | _, _ => false

def equalEntries : List (Datum × Datum) → List (Datum × Datum) → Bool
  | [], [] => true
  | (k, a) :: as, (j, b) :: bs => equal k j && equal a b && equalEntries as bs
  | _, _ => false

end

inductive Relation
  | less
  | lessEqual
  | greater
  deriving DecidableEq, Repr

def Relation.symbol : Relation → String
  | less => "<"
  | lessEqual => "<="
  | greater => ">"

def Relation.holds : Relation → Option Ordering → Bool
  | less, o => o == some .lt
  | lessEqual, o => o == some .lt || o == some .eq
  | greater, o => o == some .gt

structure Unordered where
  relation : Relation
  left : String
  right : String
  deriving DecidableEq, Repr

mutual

/-- Compares numbers with numbers, text with text by code points, and lists entry by entry. -/
def relate (r : Relation) : Datum → Datum → Except Unordered Bool
  | text a, text b => .ok (r.holds (some (compareOfLessAndEq a b)))
  | list as, list bs => relateList r as bs
  | a, b =>
    match a.number?, b.number? with
    | some m, some n => .ok (r.holds (m.compare n))
    | _, _ => .error ⟨r, a.typeName, b.typeName⟩

def relateList (r : Relation) : List Datum → List Datum → Except Unordered Bool
  | [], [] => .ok (r = .lessEqual)
  | [], _ :: _ => .ok (r ≠ .greater)
  | _ :: _, [] => .ok (r = .greater)
  | a :: as, b :: bs => if equal a b then relateList r as bs else relate r a b

end

def whole? : Datum → Option Int
  | bool b => some (if b then 1 else 0)
  | int i => some i
  | float x =>
    match Binary.ofFloat x with
    | .finite negative mantissa exponent =>
      if Binary.isWhole (.finite negative mantissa exponent) then some (Binary.truncate negative mantissa exponent)
      else none
    | _ => none
  | _ => none

/-- What a value breaks into when it is taken apart, or the name of a type that does not come apart. -/
def parts : Datum → Except String (List Datum)
  | text s => .ok (s.toList.map fun c => text (String.singleton c))
  | list items => .ok items
  | mapping entries => .ok (entries.map Prod.fst)
  | d => .error d.typeName

end Datum

end BeamOptics
