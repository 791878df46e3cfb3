import BeamOptics.Action
import BeamOptics.Lattice.Range
import BeamOptics.Lattice.Signals

/-!
# Channels

Access to single signals of elements, alone or in arrays. A read-only channel reads; a read-write channel also sets.
-/

namespace BeamOptics

structure Channel (α : Type) where
  element : Element α
  signal : Signal
  writable : Bool

namespace Channel

variable {α : Type}

def id (c : Channel α) : String := c.element.name ++ "." ++ c.signal.name

/-- A channel as it is written in lists. -/
def label (c : Channel α) : String := (if c.writable then "RWChannel" else "ROChannel") ++ s!"('{c.id}')"

def reader (e : Element α) (name : String) : Except Fault (Channel α) :=
  match Element.signal? e.optics.visible name with
  | some signal => .ok ⟨e, signal, false⟩
  | none => .error (.noReadChannel e.name name)

def writer (e : Element α) (name : String) : Except Fault (Channel α) :=
  match Element.signal? e.optics.writable name with
  | some signal => .ok ⟨e, signal, true⟩
  | none => .error (.noWriteChannel e.name name)

/-- Channels of an element, in the order of its signals. -/
def ofElement (writable : Bool) (e : Element α) : List (Channel α) :=
  (if writable then e.optics.writable else e.optics.visible).map fun signal => ⟨e, signal, writable⟩

/-- Channels along a range whose id satisfies `p`, element by element. -/
def ofRange (r : Range α) (writable : Bool) (p : String → Bool) : List (Channel α) :=
  r.elements.flatMap fun e => (ofElement writable e).filter fun c => p c.id

variable [Scalar α]

def read (s : Signals α) (c : Channel α) : α := s.value c.element c.signal

def readAll (s : Signals α) (channels : List (Channel α)) : List α := channels.map (read s)

/-- Sets the signal of a channel that can be written. -/
def write (c : Channel α) (value : α) : Action Fault (Signals α) Unit :=
  if c.writable then Action.update fun s => s.setStrength c.element value
  else throw (.readOnlyChannel c.id)

def increment (c : Channel α) (delta : α) : Action Fault (Signals α) Unit := do
  let value ← Action.ask fun s => read s c
  c.write (value + delta)

def writeEach : List (Channel α) → List α → Action Fault (Signals α) Unit
  | c :: channels, value :: values => do
    c.write value
    writeEach channels values
  | _, _ => pure ()

/-- Writes one value to each channel, in order, up to the first channel that cannot be written. -/
def writeAll (channels : List (Channel α)) (values : List α) : Action Fault (Signals α) Unit :=
  if values.length = channels.length then writeEach channels values
  else throw (.valueCount channels.length values.length)

end Channel

end BeamOptics
