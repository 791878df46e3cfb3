import BeamOptics.Accelerator.Basic
import BeamOptics.Lattice.Channel
import BeamOptics.Settings.Orbit

/-!
# Sessions

A session holds everything that has been made, and a table of names for it. What can change or is shared is kept
under a number, so that all who know the number see the change; a name stands for a number or for a fixed value.
-/

namespace BeamOptics

inductive Handle where
  | element (element : Element Float)
  | source (source : Source)
  | model (number : Nat)
  | channels (channels : List (Channel Float))
  | bunch (number : Nat)
  | beam (number : Nat)
  | segment (segment : Segment)
  | result (result : OrbitResult Float)
  | process (number : Nat)
  | observer (observer : Observer)
  | tracker (number : Nat)
  | accelerator (number : Nat)
  | solver (number : Nat)
  | config (number : Nat)

/-- An accelerator with the line, the beam and the tracker that it works with. -/
structure Assembly where
  accelerator : Accelerator Float
  model : Nat
  beam : Nat
  tracker : Nat

/-- A closed-orbit solver: the line that makes a turn, a reference momentum, settings and a tracker. -/
structure Solver where
  model : Nat
  momentum : Float
  config : Nat
  tracker : Nat

structure Session where
  plant : Plant Float := { }
  names : Table String Handle := .empty
  models : Table Nat (Model Float) := .empty
  beams : Table Nat (ReferenceBeam Float) := .empty
  configs : Table Nat (OrbitConfig Float) := .empty
  trackers : Table Nat (Tracker Float) := .empty
  assemblies : Table Nat Assembly := .empty
  solvers : Table Nat Solver := .empty
  /-- Count of the elements made so far, which is the tag of the next one. -/
  elements : Nat := 0

abbrev Work (β : Type) := Action Fault Session β

namespace Handle

def element? : Handle → Option (Element Float)
  | element e => some e
  | _ => none

def source? : Handle → Option Source
  | source s => some s
  | _ => none

def model? : Handle → Option Nat
  | model n => some n
  | _ => none

def channels? : Handle → Option (List (Channel Float))
  | channels cs => some cs
  | _ => none

def bunch? : Handle → Option Nat
  | bunch n => some n
  | _ => none

def beam? : Handle → Option Nat
  | beam n => some n
  | _ => none

def segment? : Handle → Option Segment
  | segment s => some s
  | _ => none

def result? : Handle → Option (OrbitResult Float)
  | result r => some r
  | _ => none

def process? : Handle → Option Nat
  | process n => some n
  | _ => none

def observer? : Handle → Option Observer
  | observer o => some o
  | _ => none

def tracker? : Handle → Option Nat
  | tracker n => some n
  | _ => none

def accelerator? : Handle → Option Nat
  | accelerator n => some n
  | _ => none

def solver? : Handle → Option Nat
  | solver n => some n
  | _ => none

end Handle

namespace Session

def entry {τ : Type} (table : Session → Table Nat τ) (number : Nat) : Work τ := do
  match (table (← get)).get? number with
  | some t => pure t
  | none => throw (.unbound (toString number))

/-- A name with a number sign stands for a member of a line: the name of the line, and an index. -/
def memberName? (name : String) : Option (String × Option Int) :=
  let cs := name.toList
  match cs.dropWhile (· ≠ '#') with
  | [] => none
  | _ :: index => some (String.ofList (cs.takeWhile (· ≠ '#')), Numeral.int? (String.ofList index))

def member (m : Model Float) (index : Int) : Except Fault (Element Float) :=
  match (position? index m.length).bind (m.elements[·]?) with
  | some e => .ok e
  | none => .error .listIndex

def handle (name : String) : Work Handle := do
  let names ← Action.ask Session.names
  match memberName? name with
  | none =>
    match names.get? name with
    | some h => pure h
    | none => throw (.unbound name)
  | some (line, index) =>
    match names.get? line, index with
    | some (.model n), some index =>
      let m ← entry models n
      let e ← Action.lift (member m index)
      pure (.element e)
    | some _, _ => throw (.wrongObject name)
    | none, _ => throw (.unbound line)

def pick {β : Type} (kind : Handle → Option β) (name : String) : Work β := do
  match kind (← handle name) with
  | some b => pure b
  | none => throw (.wrongObject name)

def bind (name : String) (h : Handle) : Work Unit := modify fun s => { s with names := s.names.insert name h }

def bindIf (name : Option String) (h : Handle) : Work Unit := name.forM fun name => bind name h

/-- The name that something was first bound to. -/
def nameOf? (s : Session) (p : Handle → Bool) : Option String := s.names.keyWhere? p

def processName? (s : Session) (number : Nat) : Option String := s.nameOf? fun h => h.process? == some number

def bunchName? (s : Session) (number : Nat) : Option String := s.nameOf? fun h => h.bunch? == some number

def onPlant {β : Type} (a : Action Fault (Plant Float) β) : Work β :=
  a.focus (·.plant) fun plant s => { s with plant }

def onSignals {β : Type} (a : Action Fault (Signals Float) β) : Work β :=
  a.focus (·.plant.signals) fun signals s => { s with plant := { s.plant with signals } }

def onStation {β : Type} (number : Nat) (a : Action Fault (Station Float) β) : Work β := do
  let tracker ← entry trackers number
  let plant ← Action.ask Session.plant
  let (result, station) := a.run ⟨tracker, plant⟩
  modify fun s => { s with plant := station.plant, trackers := s.trackers.insert number station.tracker }
  Action.lift result

def addTracker (config : TrackerConfig) : Work Nat := do
  let s ← get
  let station := Station.create config s.plant
  let number := s.trackers.fresh
  set { s with plant := station.plant, trackers := s.trackers.insert number station.tracker }
  pure number

def addBunch (l : Load Float) : Work Nat := do
  let s ← get
  let number := s.plant.bunches.fresh
  set { s with plant := { s.plant with bunches := s.plant.bunches.insert number l } }
  pure number

def keepBunch (name : Option String) (l : Load Float) : Work Unit :=
  name.forM fun name => do
    let number ← addBunch l
    bind name (.bunch number)

def load (number : Nat) : Work (Load Float) := entry (·.plant.bunches) number

theorem run_entry {τ : Type} {table : Session → Table Nat τ} {number : Nat} {s : Session} {t : τ}
    (h : (table s).get? number = some t) : (entry table number).run s = (.ok t, s) := by
  change (match (table s).get? number with
    | some t => (pure t : Work τ)
    | none => throw (Fault.unbound (toString number))) s = _
  rw [h]
  rfl

/-- The log lines that came after the first `count`, oldest first. -/
def linesSince (s : Session) (count : Nat) : List String :=
  (s.plant.notes.take (s.plant.notes.length - count)).reverse.map Note.line

end Session

end BeamOptics
