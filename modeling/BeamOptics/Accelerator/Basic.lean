import BeamOptics.Accelerator.Cache
import BeamOptics.Lattice.Bounds
import BeamOptics.Settings.Beam
import BeamOptics.Tracking.Tracker

/-!
# Accelerators

Tracking of several beam states, segment by segment. In incremental mode a state is first advanced through the gap
between its cached location and the start of the segment; a state that is past the start is rewound before. Without
it a copy of the initial bunch is tracked from the start of the line.
-/

namespace BeamOptics

structure Accelerator (α : Type) where
  name : String
  incremental : Bool := true
  segment : Option Segment := none
  /-- Cached bunches, by state. -/
  cache : List (CachedBunch α) := []

structure Rig (α : Type) where
  accelerator : Accelerator α
  tracker : Tracker α
  plant : Plant α

namespace Accelerator

variable {α : Type}

def label (a : Accelerator α) : String :=
  let segment := (a.segment.map Segment.text).getD "None"
  s!"Accelerator(name='{a.name}', states={a.cache.length}, segment={segment})"

/-- The cached entry that an untyped value stands for. -/
def entry (a : Accelerator α) (state : Datum) : Except Fault (Nat × CachedBunch α) :=
  match state with
  | .list _ | .mapping _ => .error (.unhashable state.typeName)
  | _ =>
    let found := do
      let n ← state.whole?
      let n ← if 0 ≤ n then some n.toNat else none
      let entry ← a.cache[n]?
      pure (n, entry)
    match found with
    | some found => .ok found
    | none => .error (.unknownState a.name state.display)

/-- The segment to work on: the one given, else the active one. -/
def resolve (a : Accelerator α) (m : Model α) (argument : SegmentArgument) : Except Fault Segment :=
  if argument.absent then
    match a.segment with
    | some s => .ok s
    | none => .error (.noActiveSegment a.name)
  else argument.resolve m

end Accelerator

namespace Rig

variable {α : Type}

def onAccelerator {β : Type} (a : Action Fault (Accelerator α) β) : Action Fault (Rig α) β :=
  a.focus (·.accelerator) fun accelerator r => { r with accelerator }

def onStation {β : Type} (a : Action Fault (Station α) β) : Action Fault (Rig α) β :=
  a.focus (fun r => ⟨r.tracker, r.plant⟩) fun s r => { r with tracker := s.tracker, plant := s.plant }

def note (n : AcceleratorNote α) : Action Fault (Rig α) Unit :=
  Action.update fun r => { r with plant := r.plant.note (.accelerator r.accelerator.name n) }

def setIncremental (flag : Bool) : Action Fault (Rig α) Unit := do
  onAccelerator (Action.update fun a => { a with incremental := flag })
  note (.incremental flag)

/-- Sets the active segment; one that is not within the line leaves the old one. -/
def setSegment (m : Model α) (argument : SegmentArgument) : Action Fault (Rig α) Segment := do
  let s ← Action.lift (argument.resolve m)
  onAccelerator (Action.update fun a => { a with segment := some s })
  note (.activeSegment s)
  pure s

def clearCache : Action Fault (Rig α) Unit :=
  onAccelerator (Action.update fun a => { a with cache := [] })

def putEntry (n : Nat) (entry : CachedBunch α) : Action Fault (Rig α) Unit :=
  onAccelerator (Action.update fun a => { a with cache := a.cache.set n entry })

variable [Scalar α]

def createBunch (beam : ReferenceBeam α) : Except Fault (Bunch α) :=
  Bunch.ofVector beam.centroid beam.momentum beam.charge 1

/-- Fresh cached bunches for a number of states, added one by one. -/
def addStates (beam : ReferenceBeam α) : Nat → Action Fault (Rig α) Unit
  | 0 => pure ()
  | n + 1 => do
    let b ← Action.lift (createBunch beam)
    onAccelerator (Action.update fun a => { a with cache := a.cache ++ [.fresh b] })
    addStates beam n

/-- Discards all states and creates new ones; the bunches that come back are copies. -/
def initialise (beam : ReferenceBeam α) (states : Datum) : Action Fault (Rig α) (List (Bunch α)) := do
  if ← Action.lift (SegmentArgument.compare .less states (.int 0)) then throw .negativeStates
  clearCache
  match states with
  | .float _ => throw (.notAnIndex states.typeName)
  | _ =>
    addStates beam (states.whole?.getD 0).toNat
    note (.initialised states.display)
    let a ← Action.ask Rig.accelerator
    pure (a.cache.map (·.bunch))

def trackFrom (r : Range α) (b : Bunch α) : Action Fault (Rig α) (Bunch α) :=
  onStation do
    Station.setRange r
    Station.setInitial (.own (.table b))
    Station.trackCopy

/-- Rewinds an entry that is past the start of a segment. Only a segment away from the origin is worth a warning. -/
def rewind (n : Nat) (entry : CachedBunch α) (state : String) (s : Segment) :
    Action Fault (Rig α) (CachedBunch α) :=
  if entry.isPast s.first then do
    if !s.startsAtOrigin then note (.rewinding state (entry.next - 1) s)
    let initial ← Action.lift entry.initial.copy
    let entry := { entry.rewound with bunch := initial }
    putEntry n entry
    pure entry
  else pure entry

/-- Brings an entry right before a segment. The entry changes only when the whole gap has been tracked. -/
def advance (m : Model α) (n : Nat) (entry : CachedBunch α) (state : String) (s : Segment) :
    Action Fault (Rig α) (CachedBunch α) := do
  let entry ← rewind n entry state s
  if s.startsAtOrigin || entry.isAt s.first then pure entry
  else do
    note (.advancing state entry.next (s.first - 1))
    let gap ← Action.lift (m.subrange entry.next ((s.first : Int) - 1))
    let b ← trackFrom gap entry.bunch
    let entry := entry.advanced (s.first - 1) b
    putEntry n entry
    pure entry

/-- Tracks a state to the end of a segment and gives the tracked bunch. -/
def trackState (m : Model α) (state : Datum) (argument : SegmentArgument) : Action Fault (Rig α) (Bunch α) := do
  let a ← Action.ask Rig.accelerator
  let s ← Action.lift (a.resolve m argument)
  let (n, entry) ← Action.lift (a.entry state)
  note (.trackingState state.display s)
  let (first, source) ←
    if a.incremental then do
      let entry ← advance m n entry state.display s
      pure (s.first, entry.bunch)
    else pure (0, entry.initial)
  let r ← Action.lift (m.subrange first s.last)
  let b ← trackFrom r source
  note (.finalMomentum b.momentum)
  pure b

def trackNewBunch (m : Model α) (beam : ReferenceBeam α) : Action Fault (Rig α) (Bunch α) := do
  let b ← Action.lift (createBunch beam)
  let line ← Action.lift m.beamline
  let b ← onStation do
    Station.setRange line
    let (result, b) ← Station.trackBunch b
    Action.lift result
    pure b
  note (.newBunchMomentum b.momentum)
  pure b

end Rig

/-- A line of the review of cached states. -/
structure CacheRow (α : Type) where
  state : Nat
  location : Option Nat
  particles : Nat
  momentum : α
  x : Option α
  y : Option α

namespace Accelerator

variable {α : Type} [Scalar α]

def reviewColumns : List String := ["State", "Location", "Particles", "Momentum", "X", "Y"]

/-- All cached states in order, with the centroid of a bunch that has particles. -/
def review (a : Accelerator α) : List (CacheRow α) :=
  a.cache.zipIdx.map fun (entry, state) =>
    let centroid := entry.bunch.centroid.toOption
    { state
      location := entry.location
      particles := entry.bunch.size
      momentum := entry.bunch.momentum
      x := centroid.map (·.x)
      y := centroid.map (·.y) }

end Accelerator

end BeamOptics
