import BeamOptics.Lattice.Map
import BeamOptics.Beam.Bunch

/-!
# Processes

Physical processes that act on a bunch after every integration step: mean synchrotron-radiation loss in bends,
path-length rescaling in bends, and a check that all coordinates are finite. They act in the order of their kinds.
-/

namespace BeamOptics

/-- Radiation is integrated in a fixed count of steps per element, or, with a maximum step above zero, in steps no
longer than it. -/
structure Radiation (α : Type) where
  steps : Nat
  maxStep : α
  /-- Whether the reference momentum follows the mean energy loss. -/
  rereference : Bool

inductive BeamProcess (α : Type) where
  | radiation (settings : Radiation α)
  | ringDelta (scale : α)
  | finiteness (detailed : Bool)

inductive ProcessKind
  | radiation | ringDelta | diagnostic
  deriving DecidableEq, Repr

namespace ProcessKind

def all : List ProcessKind := [radiation, ringDelta, diagnostic]

def rank : ProcessKind → Nat
  | radiation => 1
  | ringDelta => 2
  | diagnostic => 3

def name : ProcessKind → String
  | radiation => "RADIATION"
  | ringDelta => "RING_DELTA"
  | diagnostic => "DIAGNOSTIC"

end ProcessKind

namespace Radiation

variable {α : Type} [Scalar α]

def fixedSteps (r : Radiation α) (steps : Nat) : Radiation α := { r with steps, maxStep := 0 }

def limitedStep (r : Radiation α) (maxStep : α) : Radiation α := { r with steps := 0, maxStep }

/-- A whole count of steps from a value that is compared with 1 before it is cut to a whole number. -/
def countOf (d : Datum) : Except Fault Nat := do
  let few ← (Datum.relate .less d (.int 1)).mapError Fault.unordered
  if few then throw .radiationSteps
  match d with
  | .float x =>
    match Binary.ofFloat x with
    | .nan => throw (.math .nanToInteger)
    | .infinite _ => throw (.math .infinityToInteger)
    | .finite negative mantissa exponent => pure (Binary.truncate negative mantissa exponent).toNat
  | d => pure (d.whole?.getD 1).toNat

def setSteps (r : Radiation α) (count : Datum) : Except Fault (Radiation α) := do
  let steps ← countOf count
  pure (r.fixedSteps steps)

def setMaxStep (r : Radiation α) (size : α) : Except Fault (Radiation α) :=
  if Scalar.le size 0 then .error .radiationStepSize else .ok (r.limitedStep size)

/-- A step size above zero takes precedence over a count. -/
def build (count : Datum) (size : α) (rereference : Bool) : Except Fault (Radiation α) :=
  let r : Radiation α := ⟨1, 0, rereference⟩
  if Scalar.lt 0 size then r.setMaxStep size else r.setSteps count

def requestedSteps (r : Radiation α) (length : α) : Except MathFault Nat :=
  if Scalar.lt 0 r.maxStep then do
    let n ← Scalar.ceil (length / r.maxStep)
    pure (max 1 n.toNat)
  else .ok r.steps

/-- Loss of relative momentum over `ds` at curvature `h`. -/
def loss (p0Cubed h ds dp : α) : α := Scalar.radiation * p0Cubed * Scalar.square (1 + dp) * h * h * ds

def rescale (scale : α) (v : PhaseVector α) : PhaseVector α :=
  { v with xp := v.xp / scale, yp := v.yp / scale, dp := (1 + v.dp) / scale - 1 }

def rereferenced (b : Bunch α) : Bunch α :=
  let scale := 1 + Bunch.mean b.particles .dp
  { b.mapParticles (rescale scale) with momentum := b.momentum * scale }

def act (r : Radiation α) (e : Element α) (ds : α) (b : Bunch α) : Except MathFault (Bunch α) :=
  if !e.isBend || Scalar.beq ds 0 || b.particles.isEmpty then .ok b
  else do
    let cubed ← Scalar.cube b.momentum
    let b := b.mapParticles fun v => { v with dp := v.dp - loss cubed e.curvature ds v.dp }
    pure (if r.rereference then rereferenced b else b)

end Radiation

namespace BeamProcess

variable {α : Type}

def kind : BeamProcess α → ProcessKind
  | radiation _ => .radiation
  | ringDelta _ => .ringDelta
  | finiteness _ => .diagnostic

def className : BeamProcess α → String
  | radiation _ => "SynchRadProcess"
  | ringDelta _ => "RingDeltaPathProcess"
  | finiteness _ => "NonFiniteCheckProcess"

def label (p : BeamProcess α) : String := p.className ++ "(" ++ p.kind.name ++ ")"

/-- Items in the order of the kinds of their processes; within a kind they keep their order. -/
def inOrder {ι : Type} (kindOf : ι → ProcessKind) (items : List ι) : List ι :=
  ProcessKind.all.flatMap fun k => items.filter fun item => kindOf item = k

variable [Scalar α]

def requestedSteps (p : BeamProcess α) (e : Element α) : Except Fault Nat :=
  match p with
  | radiation r => ofMath (r.requestedSteps e.length)
  | _ => .ok 1

def nonFinite (particles : List (PhaseVector α)) : List Nat :=
  (particles.zipIdx.filter fun item => !item.1.isFinite).map Prod.snd

/-- Lets a process act after a step of length `ds` in an element. -/
def act (p : BeamProcess α) (e : Element α) (ds : α) (b : Bunch α) : Except Fault (Bunch α) :=
  match p with
  | radiation r => ofMath (r.act e ds b)
  | ringDelta scale =>
    if !e.isBend || Scalar.beq ds 0 then .ok b
    else .ok (b.mapParticles fun v => { v with ct := v.ct - scale * ds })
  | finiteness detailed =>
    match nonFinite b.particles with
    | [] => .ok b
    | particles => .error (.nonFinite e.name particles detailed)

end BeamProcess

end BeamOptics
