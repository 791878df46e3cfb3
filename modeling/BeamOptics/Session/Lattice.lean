import BeamOptics.Lattice.Bounds
import BeamOptics.Lattice.Description
import BeamOptics.Pattern.Matching
import BeamOptics.Pattern.Reading
import BeamOptics.Session.Basic

/-!
# Lines and channels in a session
-/

namespace BeamOptics

/-- A member of a line as it is given: described anew, named, or no element at all. -/
inductive MemberChoice where
  | described (draft : ElementDraft Float)
  | named (name : String)
  | foreign

inductive SourceChoice where
  | described (name : String) (indexes : List Int)
  | named (name : String)

/-- A channel as it is given: the element and the name of a signal. -/
structure ChannelChoice where
  writable : Bool
  element : String
  signal : String

/-- A segment as it is given: bounds under their names, a named segment, or a value. -/
inductive SegmentChoice where
  | described (entries : List (String × Datum))
  | named (name : String)
  | plain (value : Datum)

inductive Extent where
  | whole
  | between (first last : Datum)

namespace Session

def element : String → Work (Element Float) := pick Handle.element?

def modelNumber : String → Work Nat := pick Handle.model?

def model (name : String) : Work (Model Float) := do
  let number ← modelNumber name
  entry models number

def makeElement (d : ElementDraft Float) : Work (Element Float) := do
  let tag ← Action.ask Session.elements
  let e ← Action.lift (d.build tag)
  modify fun s => { s with elements := tag + 1 }
  pure e

def createElement (name : Option String) (d : ElementDraft Float) : Work (Element Float) := do
  let e ← makeElement d
  bindIf name (.element e)
  pure e

def transferMap (on : String) (ds : Float) : Work (TransferMap Float) := do
  let e ← element on
  Action.lift (ofMath (e.transferMap ds))

def kick (on : String) (ds : Float) : Work (PhaseVector Float) := do
  let e ← element on
  let strength ← Action.ask fun s => s.plant.signals.strength e
  pure (e.kick strength ds)

def curvature (on : String) : Work Float := do
  let e ← element on
  if e.isBend then pure e.curvature else throw (.noCurvature e.optics.className)

def getAttribute (on name : String) : Work Float := do
  let e ← element on
  let signals ← Action.ask fun s => s.plant.signals
  Action.lift (signals.get e name)

def setAttribute (on name : String) (value : Float) : Work (Element Float) := do
  let e ← element on
  let signals ← Action.ask fun s => s.plant.signals
  let signals ← Action.lift (signals.set e name value)
  onSignals (Action.update fun _ => signals)
  pure e

def source : SourceChoice → Work Source
  | .described name indexes => Action.lift (Source.build name indexes)
  | .named name => pick Handle.source? name

def createSource (name : Option String) (choice : SourceChoice) : Work Source := do
  let s ← source choice
  bindIf name (.source s)
  pure s

def sortSources (choices : List SourceChoice) : Work (List String) := do
  let sources ← choices.mapM source
  pure ((Source.inLineOrder sources).map (·.name))

/-- A member of a line, unless what is given is no element. A name that nothing is bound to is just a text. -/
def memberOf : MemberChoice → Work (Option (Element Float))
  | .described d => do
    let e ← makeElement d
    pure (some e)
  | .named name => do
    match ← (handle name).outcome with
    | .ok h => pure h.element?
    | .error _ => pure none
  | .foreign => pure none

def createModel (as : Option String) (name : String) (members : List MemberChoice) (sources : List SourceChoice) :
    Work Nat := do
  let members ← members.mapM memberOf
  let sources ← sources.mapM source
  let m ← Action.lift (Model.build name members sources)
  let number ← Action.ask fun s => s.models.fresh
  modify fun s => { s with models := s.models.insert number m }
  bindIf as (.model number)
  pure m.length

def putModel (number : Nat) (m : Model Float) : Work Unit :=
  modify fun s => { s with models := s.models.insert number m }

def addElement (on : String) (choice : MemberChoice) : Work Nat := do
  let number ← modelNumber on
  match ← memberOf choice with
  | none => throw .foreignElement
  | some e =>
    let m ← entry models number
    let m ← Action.lift (m.addElement e)
    putModel number m
    pure m.length

def addSource (on : String) (choice : SourceChoice) : Work (List String) := do
  let number ← modelNumber on
  let s ← source choice
  let m ← entry models number
  let m ← Action.lift (m.addSource s)
  putModel number m
  pure (m.sources.map (·.name))

def getElement (on : String) (index : Int) : Work (Element Float) := do
  let m ← model on
  Action.lift (m.element index)

def fullSegment (on : String) : Work Segment := do
  let m ← model on
  Action.lift m.fullSegment

def totalLength (on : String) : Work Float := do
  let m ← model on
  pure m.totalLength

def rangeOf (m : Model Float) : Extent → Except Fault (Range Float)
  | .whole => m.beamline
  | .between first last => SegmentArgument.rangeBetween m first last

def beamline (on : String) (extent : Extent) : Work (Range Float) := do
  let m ← model on
  Action.lift (rangeOf m extent)

def namesOfClass (on className : String) : Work (List String) := do
  let m ← model on
  pure (m.namesOfClass className)

def pattern (text : String) : Except Fault Pattern.Node :=
  match Pattern.read? text with
  | some node => .ok node
  | none => .error .badPattern

def indexesIn (m : Model Float) (text : String) : Except Fault (List Nat) := do
  let node ← pattern text
  pure (m.indexesWhere node.fullMatch)

def findIndexes (on text : String) : Work (List Nat) := do
  let m ← model on
  Action.lift (indexesIn m text)

def channels : String → Work (List (Channel Float)) := pick Handle.channels?

def findChannels (as : Option String) (on : String) (extent : Extent) (writable : Bool) (text : String) :
    Work (List (Channel Float)) := do
  let m ← model on
  let r ← Action.lift (rangeOf m extent)
  let node ← Action.lift (pattern text)
  let found := Channel.ofRange r writable node.fullMatch
  bindIf as (.channels found)
  pure found

def channel (choice : ChannelChoice) : Work (Channel Float) := do
  let e ← element choice.element
  Action.lift (if choice.writable then Channel.writer e choice.signal else Channel.reader e choice.signal)

def createArray (as : Option String) (choices : List ChannelChoice) : Work (List (Channel Float)) := do
  let made ← choices.mapM channel
  bindIf as (.channels made)
  pure made

/-- Fills an array with the channels of others, in their order. -/
def setChannels (on : String) (others : List String) : Work Nat := do
  let _ ← channels on
  let lists ← others.mapM channels
  bind on (.channels lists.flatten)
  pure lists.flatten.length

def readAll (on : String) : Work (List Float) := do
  let array ← channels on
  Action.ask fun s => Channel.readAll s.plant.signals array

/-- Writes to all channels of an array; the values read back afterwards come with the outcome. -/
def writeAll (on : String) (values : List Float) : Work (Except Fault Unit × List Float) := do
  let array ← channels on
  let result ← (onSignals (Channel.writeAll array values)).outcome
  let after ← readAll on
  pure (result, after)

def channelAt (on : String) (index : Int) : Work (Channel Float) := do
  let array ← channels on
  match (position? index array.length).bind (array[·]?) with
  | some c => pure c
  | none => throw .listIndex

def readChannel (c : Channel Float) : Work Float := Action.ask fun s => c.read s.plant.signals

def read (on : String) (index : Int) : Work Float := do
  let c ← channelAt on index
  readChannel c

/-- A read-only channel has no way to be changed at all. -/
def requireWriter (c : Channel Float) (operation : String) : Work Unit :=
  if c.writable then pure () else throw (.noWriter operation)

def write (on : String) (index : Int) (value : Float) : Work Float := do
  let c ← channelAt on index
  requireWriter c "write"
  onSignals (c.write value)
  readChannel c

def increment (on : String) (index : Int) (delta : Float) : Work Float := do
  let c ← channelAt on index
  requireWriter c "increment"
  onSignals (c.increment delta)
  readChannel c

def segmentArgument : SegmentChoice → Work SegmentArgument
  | .described entries => do
    let s ← Action.lift (Segment.form.read entries)
    pure (.segment s)
  | .named name => do
    let s ← pick Handle.segment? name
    pure (.segment s)
  | .plain value => pure (.untyped value)

end Session

end BeamOptics
