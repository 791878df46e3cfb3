import BeamOptics.Action
import BeamOptics.Lattice.Signals
import BeamOptics.Tracking.BeamProcess

/-!
# Passing elements

A bunch passes an element slice by slice: map, kick, then every process. Monitors read the bunch once the whole
element is behind it. What happened before a failure stays visible in the bunch.
-/

namespace BeamOptics

structure Pass (α : Type) where
  bunch : Bunch α
  signals : Signals α

namespace Pass

variable {α : Type} [Scalar α]

/-- Steps into which the processes split an element: the most that any of them asks for. -/
def stepCount (processes : List (BeamProcess α)) (e : Element α) : Except Fault Nat :=
  if e.sliceable then do
    match ← processes.mapM fun p => p.requestedSteps e with
    | [] => pure 1
    | counts => pure (counts.foldl max 0)
  else .ok 1

def applyAll (e : Element α) (ds : α) : List (BeamProcess α) → Action Fault (Bunch α) Unit
  | [] => pure ()
  | p :: rest => do
    let b ← get
    let b ← Action.lift (p.act e ds b)
    set b
    applyAll e ds rest

/-- One slice: the map and the kick on every particle, then the processes. -/
def slice (processes : List (BeamProcess α)) (e : Element α) (m : TransferMap α) (kick : PhaseVector α) (ds : α) :
    Action Fault (Bunch α) Unit := do
  modify fun b => b.mapParticles fun v => m.act v + kick
  applyAll e ds processes

def slices (processes : List (BeamProcess α)) (e : Element α) (m : TransferMap α) (kick : PhaseVector α) (ds : α) :
    Nat → Action Fault (Bunch α) Unit
  | 0 => pure ()
  | n + 1 => do
    slice processes e m kick ds
    slices processes e m kick ds n

def onBunch {β : Type} (a : Action Fault (Bunch α) β) : Action Fault (Pass α) β :=
  a.focus (·.bunch) fun bunch pass => { pass with bunch }

/-- Passes one element. The processes are given in the order in which they were attached. -/
def throughElement (processes : List (BeamProcess α)) (e : Element α) : Action Fault (Pass α) Unit := do
  let steps ← Action.lift (stepCount processes e)
  let ds ← Action.lift (ofMath (Scalar.overCount e.length steps))
  let m ← Action.lift (ofMath (e.transferMap ds))
  let strength ← Action.ask fun pass => pass.signals.strength e
  onBunch (slices (BeamProcess.inOrder BeamProcess.kind processes) e m (e.kick strength ds) ds steps)
  modify fun pass => { pass with signals := pass.signals.observe e pass.bunch }

/-- Passes elements one after the other; a failure carries the index of its element. -/
def throughLine (processes : List (BeamProcess α)) : Nat → List (Element α) → Action (Nat × Fault) (Pass α) Unit
  | _, [] => pure ()
  | index, e :: rest => do
    (throughElement processes e).mapError fun fault => (index, fault)
    throughLine processes (index + 1) rest

end Pass

end BeamOptics
