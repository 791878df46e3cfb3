import BeamOptics.Accelerator.Basic
import BeamOptics.ClosedOrbit.Rms
import BeamOptics.ClosedOrbit.Search
import BeamOptics.Lattice.Channel
import BeamOptics.Proofs.Lattice.Part
import BeamOptics.Tracking.Stepper

/-!
# A machine under operation

A line with an accelerator, its tracker and the plant, and the commands that an operator gives, in any order. A
command that fails half-way leaves what it has done so far.
-/

namespace BeamOptics

/-- A beamline with an accelerator on it. -/
structure Machine (α : Type) where
  line : Model α
  rig : Rig α

/-- What an operator does to a machine. -/
inductive Command (α : Type) where
  | initialise (states : Datum)
  | clearCache
  | setTracker (tracker : Tracker α)
  | setIncremental (flag : Bool)
  | setSegment (argument : SegmentArgument)
  | trackState (state : Datum) (argument : SegmentArgument)
  | trackNewBunch
  | addElement (element : Element α)
  /-- Sets a signal through a channel. -/
  | write (channel : Channel α) (value : α)
  /-- Brings a bunch into the plant. -/
  | putBunch (number : Nat) (load : Load α)
  | setRange (range : Range α)
  | setInitial (initial : InitialBunch α)
  | trackInPlace (bunch : Nat)
  | trackCopy
  | initStepper (bunch : Nat)
  | step
  | findOrbit (decompose : Decomposer α) (config : OrbitConfig α) (momentum : α) (argument : SegmentArgument)
    (guess : PhaseVector α)
  | findExcursion (momentum : α) (start : PhaseVector α)

namespace Machine

variable {α : Type}

def new (name : String) (line : Model α) (tracker : Tracker α) (plant : Plant α) : Machine α :=
  ⟨line, ⟨{ name }, tracker, plant⟩⟩

def afterRig {β : Type} (t : Machine α) (a : Action Fault (Rig α) β) : Machine α := { t with rig := (a.run t.rig).2 }

def afterStation {β : Type} (t : Machine α) (a : Action Fault (Station α) β) : Machine α :=
  t.afterRig (Rig.onStation a)

def afterPlant {β : Type} (t : Machine α) (a : Action Fault (Plant α) β) : Machine α :=
  { t with rig := { t.rig with plant := (a.run t.rig.plant).2 } }

def cache (t : Machine α) : List (CachedBunch α) := t.rig.accelerator.cache

end Machine

namespace Command

variable {α : Type}

/-- A signal is set only on elements that no advanced state has passed. -/
def Allowed (t : Machine α) : Command α → Prop
  | write c _ => ∀ entry ∈ t.cache, ∀ e ∈ t.line.elements.take entry.next, c.element.tag ≠ e.tag
  | _ => True

/-- An element of a line without repeated elements can be written to as long as its index is beyond the location of
every advanced state. -/
theorem allowed_write {t : Machine α} {c : Channel α} {index : Nat} (hindex : t.line.elements[index]? = some c.element)
    (hdistinct : (t.line.elements.map Element.tag).Nodup)
    (hahead : ∀ entry ∈ t.cache, ∀ k, entry.location = some k → k < index) (value : α) :
    (write c value).Allowed t := by
  intro entry hentry e he heq
  obtain ⟨i, hi, rfl⟩ := List.getElem_of_mem he
  rw [List.length_take] at hi
  have hbelow : i < index := by
    cases hlocation : entry.location with
    | none =>
      rw [CachedBunch.next, hlocation] at hi
      dsimp only at hi
      omega
    | some k =>
      have hk := hahead entry hentry k hlocation
      rw [CachedBunch.next, hlocation] at hi
      dsimp only at hi
      omega
  rw [List.getElem_take] at heq
  have hi' : i < t.line.elements.length := by omega
  have hsame := Model.index_inj hdistinct hindex (List.getElem?_eq_getElem hi') heq
  omega

variable [Scalar α]

/-- The machine after a command; the beam is the one that states are created for. -/
def after (beam : ReferenceBeam α) (t : Machine α) : Command α → Machine α
  | initialise states => t.afterRig (Rig.initialise beam states)
  | clearCache => t.afterRig Rig.clearCache
  | setTracker tracker => { t with rig := { t.rig with tracker } }.afterRig Rig.clearCache
  | setIncremental flag => t.afterRig (Rig.setIncremental flag)
  | setSegment argument => t.afterRig (Rig.setSegment t.line argument)
  | trackState state argument => t.afterRig (Rig.trackState t.line state argument)
  | trackNewBunch => t.afterRig (Rig.trackNewBunch t.line beam)
  | addElement e =>
    match t.line.addElement e with
    | .ok line => { t with line }
    | .error _ => t
  | write c value =>
    t.afterPlant ((c.write value).focus (·.signals) fun signals plant => { plant with signals })
  | putBunch number load =>
    t.afterPlant (Action.update fun plant => { plant with bunches := plant.bunches.insert number load })
  | setRange range => t.afterStation (Station.setRange range)
  | setInitial initial => t.afterStation (Station.setInitial initial)
  | trackInPlace bunch => t.afterStation (Station.rideShared bunch Ride.track)
  | trackCopy => t.afterStation Station.trackCopy
  | initStepper bunch => t.afterStation (Station.initStepper bunch)
  | step => t.afterStation Station.step
  | findOrbit decompose config momentum argument guess =>
    match argument.range t.line with
    | .ok range => t.afterStation (OrbitSearch.find decompose config momentum range guess)
    | .error _ => t
  | findExcursion momentum start => t.afterPlant (Rms.excursion t.line t.rig.tracker.config momentum start)

end Command

namespace Machine

variable {α : Type} [Scalar α]

/-- The machines that allowed commands lead to from a given one. -/
inductive Reaches (beam : ReferenceBeam α) (start : Machine α) : Machine α → Prop
  | start : Reaches beam start start
  | next {t : Machine α} (command : Command α) (reached : Reaches beam start t) (allowed : command.Allowed t) :
    Reaches beam start (command.after beam t)

def Reachable (beam : ReferenceBeam α) (t : Machine α) : Prop :=
  ∃ name line tracker plant, Reaches beam (new name line tracker plant) t

end Machine

end BeamOptics
