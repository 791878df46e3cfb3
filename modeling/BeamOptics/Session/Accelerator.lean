import BeamOptics.Accelerator.Channels
import BeamOptics.Session.Tracking

/-!
# Accelerators in a session
-/

namespace BeamOptics

/-- What is left when a state has been tracked: the outcome, the active range of the tracker, the cache. -/
structure StateReport where
  outcome : Except Fault (Bunch Float)
  range : Option (Range Float)
  cache : List (CachedBunch Float)

namespace Session

def assemblyNumber : String → Work Nat := pick Handle.accelerator?

def assembly (name : String) : Work Assembly := do
  let number ← assemblyNumber name
  entry assemblies number

def putAssembly (number : Nat) (a : Assembly) : Work Unit :=
  modify fun s => { s with assemblies := s.assemblies.insert number a }

def onRig {β : Type} (number : Nat) (a : Action Fault (Rig Float) β) : Work β := do
  let assembly ← entry assemblies number
  let tracker ← entry trackers assembly.tracker
  let plant ← Action.ask Session.plant
  let (result, rig) := a.run ⟨assembly.accelerator, tracker, plant⟩
  modify fun s =>
    { s with
      plant := rig.plant
      trackers := s.trackers.insert assembly.tracker rig.tracker
      assemblies := s.assemblies.insert number { assembly with accelerator := rig.accelerator } }
  Action.lift result

/-- Builds an accelerator; without a tracker it gets one of its own. -/
def createAccelerator (as : Option String) (name modelName beamName : String) (trackerName : Option String) :
    Work (Accelerator Float) := do
  let model ← modelNumber modelName
  let beam ← beamNumber beamName
  let tracker ← match trackerName with
    | some trackerName => trackerNumber trackerName
    | none => addTracker { }
  let number ← Action.ask fun s => s.assemblies.fresh
  let accelerator : Accelerator Float := { name }
  putAssembly number { accelerator, model, beam, tracker }
  bindIf as (.accelerator number)
  pure accelerator

def setTracker (on trackerName : String) : Work Unit := do
  let number ← assemblyNumber on
  let tracker ← trackerNumber trackerName
  let a ← entry assemblies number
  putAssembly number { a with tracker }
  onRig number Rig.clearCache

def allowIncremental (on : String) (flag : Datum) : Work Bool := do
  let number ← assemblyNumber on
  onRig number (Rig.setIncremental flag.isTrue)
  pure flag.isTrue

def activeSegment (on : String) : Work (Option Segment) := do
  let a ← assembly on
  pure a.accelerator.segment

def setSegmentOf (number : Nat) (choice : SegmentChoice) : Work Segment := do
  let argument ← segmentArgument choice
  let a ← entry assemblies number
  let m ← entry models a.model
  onRig number (Rig.setSegment m argument)

/-- Sets the active segment; the one that is active afterwards comes with the outcome. -/
def setActiveSegment (on : String) (choice : SegmentChoice) : Work (Except Fault Unit × Option Segment) := do
  let number ← assemblyNumber on
  let outcome ← (setSegmentOf number choice).outcome
  let after ← activeSegment on
  pure (outcome.map fun _ => (), after)

def lineOf (on : String) : Work (Model Float) := do
  let a ← assembly on
  entry models a.model

def acceleratorSegment (on : String) : Work Segment := do
  let m ← lineOf on
  Action.lift m.fullSegment

def acceleratorIndexes (on text : String) : Work (List Nat) := do
  let m ← lineOf on
  Action.lift (indexesIn m text)

def initialise (on : String) (states : Datum) : Work (List (Bunch Float)) := do
  let number ← assemblyNumber on
  let a ← entry assemblies number
  let beam ← entry beams a.beam
  onRig number (Rig.initialise beam states)

def clearCache (on : String) : Work Unit := do
  let number ← assemblyNumber on
  onRig number Rig.clearCache

def cachedEntry (on : String) (state : Datum) : Work (CachedBunch Float) := do
  let a ← assembly on
  let (_, found) ← Action.lift (a.accelerator.entry state)
  pure found

def trackStateOf (number : Nat) (state : Datum) (choice : SegmentChoice) (as : Option String) : Work (Bunch Float) := do
  let argument ← segmentArgument choice
  let a ← entry assemblies number
  let m ← entry models a.model
  let b ← onRig number (Rig.trackState m state argument)
  keepBunch as (.table b)
  pure b

def trackState (on : String) (state : Datum) (choice : SegmentChoice) (as : Option String) : Work StateReport := do
  let number ← assemblyNumber on
  let outcome ← (trackStateOf number state choice as).outcome
  let a ← entry assemblies number
  let t ← entry trackers a.tracker
  pure ⟨outcome, t.range, a.accelerator.cache⟩

def trackNewBunch (on : String) (as : Option String) : Work (Bunch Float) := do
  let number ← assemblyNumber on
  let a ← entry assemblies number
  let m ← entry models a.model
  let beam ← entry beams a.beam
  let b ← onRig number (Rig.trackNewBunch m beam)
  keepBunch as (.table b)
  pure b

def review (on : String) : Work (List (CacheRow Float)) := do
  let a ← assembly on
  pure a.accelerator.review

/-- Channels along a segment of an accelerator. The planes are read before the segment. -/
def acceleratorChannels (on planes : String) (choice : SegmentChoice) (as : Option String)
    (find : Accelerator Float → Model Float → PlaneChoice → SegmentArgument →
      Except Fault (List (Channel Float))) :
    Work (List (Channel Float)) := do
  let a ← assembly on
  let m ← entry models a.model
  let planes ← Action.lift (PlaneChoice.ofText planes)
  let argument ← segmentArgument choice
  let found ← Action.lift (find a.accelerator m planes argument)
  bindIf as (.channels found)
  pure found

def monitorChannels (on planes : String) (choice : SegmentChoice) (as : Option String) :
    Work (List (Channel Float)) :=
  acceleratorChannels on planes choice as Accelerator.monitorChannels

def correctorChannels (on planes : String) (choice : SegmentChoice) (as : Option String) :
    Work (List (Channel Float)) :=
  acceleratorChannels on planes choice as Accelerator.correctorChannels

def klystrons (on : String) : Work (List String) := do
  let m ← lineOf on
  pure (m.klystrons.map (·.name))

end Session

end BeamOptics
