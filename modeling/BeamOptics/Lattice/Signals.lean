import BeamOptics.Lattice.Element
import BeamOptics.Beam.Bunch
import BeamOptics.Table

/-!
# Live signals

Strengths and readings as they are now. An element that was never set or read has the values it was built with.
-/

namespace BeamOptics

structure Signals (α : Type) where
  strengths : Table Nat α := .empty
  readings : Table Nat (α × α) := .empty

namespace Signals

variable {α : Type} [Scalar α]

def strength (s : Signals α) (e : Element α) : α := (s.strengths.get? e.tag).getD e.builtStrength

def reading (s : Signals α) (e : Element α) : α × α := (s.readings.get? e.tag).getD e.builtReading

def setStrength (s : Signals α) (e : Element α) (value : α) : Signals α :=
  { s with strengths := s.strengths.insert e.tag value }

def setReading (s : Signals α) (e : Element α) (value : α × α) : Signals α :=
  { s with readings := s.readings.insert e.tag value }

/-- A monitor takes the centroid of a bunch that has particles; nothing else takes anything. -/
def observe (s : Signals α) (e : Element α) (b : Bunch α) : Signals α :=
  match e.optics with
  | .monitor .. =>
    match b.particles with
    | [] => s
    | particles => s.setReading e (Bunch.mean particles .x, Bunch.mean particles .y)
  | _ => s

def value (s : Signals α) (e : Element α) : Signal → α
  | .x => (s.reading e).1
  | .y => (s.reading e).2
  | .strength => s.strength e

/-- Reads a signal by its name. -/
def get (s : Signals α) (e : Element α) (name : String) : Except Fault α :=
  match Element.signal? e.optics.visible name with
  | some signal => .ok (s.value e signal)
  | none => .error (.unknownAttribute e.name name)

/-- Sets a writable signal by its name. -/
def set (s : Signals α) (e : Element α) (name : String) (value : α) : Except Fault (Signals α) :=
  match Element.signal? e.optics.writable name with
  | some _ => .ok (s.setStrength e value)
  | none => .error (.fixedAttribute e.name name)

@[simp] theorem strength_setStrength_self (s : Signals α) (e : Element α) (value : α) :
    (s.setStrength e value).strength e = value := by
  simp [strength, setStrength]

theorem strength_setStrength_of_ne (s : Signals α) {e f : Element α} (value : α) (h : e.tag ≠ f.tag) :
    (s.setStrength e value).strength f = s.strength f := by
  simp [strength, setStrength, Table.get?_insert, h]

@[simp] theorem strength_setReading (s : Signals α) (e f : Element α) (value : α × α) :
    (s.setReading e value).strength f = s.strength f := rfl

@[simp] theorem reading_setStrength (s : Signals α) (e f : Element α) (value : α) :
    (s.setStrength e value).reading f = s.reading f := rfl

@[simp] theorem reading_setReading_self (s : Signals α) (e : Element α) (value : α × α) :
    (s.setReading e value).reading e = value := by
  simp [reading, setReading]

/-- Observation leaves every strength alone. -/
@[simp] theorem strengths_observe (s : Signals α) (e : Element α) (b : Bunch α) :
    (s.observe e b).strengths = s.strengths := by
  unfold observe
  split
  · split <;> rfl
  · rfl

end Signals

end BeamOptics
