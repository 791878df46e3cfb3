/-!
# Nested arrays

Numbers in nested lists. An array is regular when lists side by side have equal shapes, and there is a limit to the
count of its axes.
-/

namespace BeamOptics

inductive Nested (α : Type) where
  | leaf (value : α)
  | node (items : List (Nested α))

namespace Nested

instance {α : Type} : Inhabited (Nested α) := ⟨.node []⟩

variable {α β : Type}

mutual

def map (f : α → β) : Nested α → Nested β
  | leaf a => leaf (f a)
  | node items => node (mapList f items)

def mapList (f : α → β) : List (Nested α) → List (Nested β)
  | [] => []
  | item :: rest => map f item :: mapList f rest

end

mutual

def leaves : Nested α → List α
  | leaf a => [a]
  | node items => leavesList items

def leavesList : List (Nested α) → List α
  | [] => []
  | item :: rest => leaves item ++ leavesList rest

end

def commonShape : List Nat → List Nat → List Nat
  | a :: as, b :: bs => if a = b then a :: commonShape as bs else []
  | _, _ => []

mutual

/-- The lengths on which all lists of a level agree, from the outside inwards. -/
def shape : Nested α → List Nat
  | leaf _ => []
  | node items =>
    items.length ::
      match items with
      | [] => []
      | item :: rest => shapeList (shape item) rest

def shapeList (common : List Nat) : List (Nested α) → List Nat
  | [] => common
  | item :: rest => shapeList (commonShape common (shape item)) rest

end

mutual

def hasShape : List Nat → Nested α → Bool
  | [], leaf _ => true
  | n :: inner, node items => items.length == n && hasShapeList inner items
  | _, _ => false

def hasShapeList (inner : List Nat) : List (Nested α) → Bool
  | [] => true
  | item :: rest => hasShape inner item && hasShapeList inner rest

end

def mostAxes : Nat := 64

/-- The shape of a regular array that is not nested too deep. -/
def shape? (a : Nested α) : Option (List Nat) :=
  if a.hasShape a.shape ∧ a.shape.length ≤ mostAxes then some a.shape else none

def ofList (values : List α) : Nested α := node (values.map leaf)

def value? : Nested α → Option α
  | leaf a => some a
  | node _ => none

def toList? : Nested α → Option (List α)
  | leaf _ => none
  | node items => items.mapM value?

def items : Nested α → List (Nested α)
  | leaf _ => []
  | node items => items

mutual

def zipWith (f : α → α → α) : Nested α → Nested α → Nested α
  | leaf a, leaf b => leaf (f a b)
  | node as, node bs => node (zipList f as bs)
  | a, _ => a

def zipList (f : α → α → α) : List (Nested α) → List (Nested α) → List (Nested α)
  | a :: as, b :: bs => zipWith f a b :: zipList f as bs
  | _, _ => []

end

end Nested

end BeamOptics
