import BeamOptics.Session.Lattice
import BeamOptics.Settings.Beam

/-!
# Bunches, beams and results in a session
-/

namespace BeamOptics

/-- How a bunch is written: particle count, momentum and charge. -/
def Load.label (l : Load Float) : String :=
  s!"Bunch(particles={l.size}, reference_momentum=" ++ Decimal.general l.momentum 6 ++ " GeV/c, charge=" ++
    Decimal.general l.charge 6 ++ ")"

/-- A value whose fields are checked on assignment. -/
inductive Record where
  | beam (beam : ReferenceBeam Float)
  | orbit (config : OrbitConfig Float)
  | result (result : OrbitResult Float)
  | segment (segment : Segment)

namespace Session

def bunchNumber : String → Work Nat := pick Handle.bunch?

def bunch (name : String) : Work (Load Float) := do
  let number ← bunchNumber name
  load number

def putBunch (number : Nat) (l : Load Float) : Work Unit :=
  modify fun s => { s with plant := { s.plant with bunches := s.plant.bunches.insert number l } }

def bunchOf (momentum charge : Float) : Option (Nested Float) → Except Fault (Load Float)
  | none => (Bunch.make momentum charge []).map Load.table
  | some particles => Load.ofArray momentum charge particles

def createBunch (as : Option String) (momentum charge : Float) (particles : Option (Nested Float)) :
    Work (Load Float) := do
  let l ← Action.lift (bunchOf momentum charge particles)
  keepBunch as l
  pure l

/-- Copies of one vector; the vector is looked at first, then the count, then the momentum. -/
def bunchOfCopies (vector : Nested Float) (momentum charge : Float) (copies : Int) : Except Fault (Load Float) := do
  let v ← vector.phaseVector Fault.vectorShape
  if copies < 0 then throw .negativeCopies
  let b ← Bunch.ofVector v momentum charge copies.toNat
  pure (.table b)

def createCopies (as : Option String) (vector : Nested Float) (momentum charge : Float) (copies : Int) :
    Work (Load Float) := do
  let l ← Action.lift (bunchOfCopies vector momentum charge copies)
  keepBunch as l
  pure l

def append (on : String) (vector : Nested Float) : Work (Load Float) := do
  let number ← bunchNumber on
  let v ← Action.lift (vector.phaseVector Fault.vectorShape)
  let l ← load number
  let l ← Action.lift (l.append v)
  putBunch number l
  pure l

def setParticle (on : String) (index : Int) (vector : Nested Float) : Work (Load Float) := do
  let number ← bunchNumber on
  let v ← Action.lift (vector.phaseVector Fault.vectorShape)
  let l ← load number
  let l ← Action.lift (l.setParticle index v)
  putBunch number l
  pure l

def copyBunch (on : String) (as : Option String) : Work (Load Float) := do
  let l ← bunch on
  let l ← Action.lift l.copy
  keepBunch as l
  pure l

def particle (on : String) (index : Int) : Work (Nested Float) := do
  let l ← bunch on
  Action.lift (l.particle index)

def firstParticle (on : String) : Work (Nested Float) := do
  let l ← bunch on
  Action.lift l.firstParticle

def centroid (on : String) : Work (Nested Float) := do
  let l ← bunch on
  Action.lift l.centroid

def observe (on bunchName : String) : Work (Element Float) := do
  let e ← element on
  let l ← bunch bunchName
  let b ← Action.lift l.bunch
  onSignals (Action.update fun signals => signals.observe e b)
  pure e

def beamNumber : String → Work Nat := pick Handle.beam?

def createBeam (as : Option String) (d : Datum) : Work (ReferenceBeam Float) := do
  let beam ← Action.lift (ReferenceBeam.form.readDatum d)
  let number ← Action.ask fun s => s.beams.fresh
  modify fun s => { s with beams := s.beams.insert number beam }
  bindIf as (.beam number)
  pure beam

def createSegment (as : Option String) (r : Except Fault Segment) : Work Segment := do
  let s ← Action.lift r
  bindIf as (.segment s)
  pure s

def result : String → Work (OrbitResult Float) := pick Handle.result?

def createResult (as : Option String) (d : Datum) : Work (OrbitResult Float) := do
  let r ← Action.lift (OrbitResult.form.readDatum d)
  bindIf as (.result r)
  pure r

def requireConverged (on : String) : Work Unit := do
  let r ← result on
  let _ ← Action.lift r.requireConverged

def record (on : String) : Work Record := do
  match ← handle on with
  | .beam number => do
    let beam ← entry beams number
    pure (.beam beam)
  | .config number => do
    let config ← entry configs number
    pure (.orbit config)
  | .result r => pure (.result r)
  | .segment s => pure (.segment s)
  | _ => throw (.wrongObject on)

def assign (on field : String) (d : Datum) : Work Unit := do
  match ← handle on with
  | .beam number => do
    let beam ← entry beams number
    let beam ← Action.lift (ReferenceBeam.form.assign beam field d)
    modify fun s => { s with beams := s.beams.insert number beam }
  | .config number => do
    let config ← entry configs number
    let config ← Action.lift (OrbitConfig.form.assign config field d)
    modify fun s => { s with configs := s.configs.insert number config }
  | .result r => do
    let r ← Action.lift (OrbitResult.form.assign r field d)
    bind on (.result r)
  | .segment s => do
    let s ← Action.lift (s.assign field)
    bind on (.segment s)
  | _ => throw (.wrongObject on)

/-- Assigns a field; the record as it is afterwards comes with the outcome. -/
def setField (on field : String) (d : Datum) : Work (Except Fault Unit × Record) := do
  let _ ← record on
  let outcome ← (assign on field d).outcome
  let after ← record on
  pure (outcome, after)

def count (on : String) : Work Nat := do
  match ← handle on with
  | .bunch number => do
    let l ← load number
    pure l.size
  | .model number => do
    let m ← entry models number
    pure m.length
  | .channels array => pure array.length
  | .segment s => Action.lift s.count
  | _ => throw (.wrongObject on)

end Session

end BeamOptics
