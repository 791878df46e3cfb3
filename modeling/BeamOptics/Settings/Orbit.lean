import BeamOptics.Form
import BeamOptics.Nested
import BeamOptics.PhaseVector
import BeamOptics.Decimal.Double

/-!
# Closed-orbit settings and results
-/

namespace BeamOptics

/-- Settings of a closed-orbit search. Radiation is integrated in a fixed count of steps per element, or in steps
up to a maximum length; a step length other than zero takes precedence. -/
structure OrbitConfig (α : Type) where
  transverseOnly : Bool
  radiation : Bool
  radiationSteps : Int
  radiationStepSize : α
  fullAcceleration : Bool
  delta : α
  tolerance : α
  maxIterations : Int
  bendScale : α
  checkFinite : Bool
  svdThreshold : α

namespace OrbitConfig

def standard : OrbitConfig Float where
  transverseOnly := false
  radiation := false
  radiationSteps := 1
  radiationStepSize := 0
  fullAcceleration := false
  delta := 1e-9
  tolerance := 1e-26
  maxIterations := 20
  bendScale := 0
  checkFinite := false
  svdThreshold := 1e-8

def positive : Rule Float := Rule.float.only (Scalar.lt 0) .greaterThan

def nonNegative : Rule Float := Rule.float.only (Scalar.le 0) .greaterThanEqual

def form : Form (OrbitConfig Float) (OrbitConfig Float) where
  title := "ClosedOrbitConfig"
  home := "ringtrack.optics.closed_orbit"
  blank := standard
  fields := [
    .of "transverse_only" false Rule.bool fun b c => { c with transverseOnly := b },
    .of "radiation" false Rule.bool fun b c => { c with radiation := b },
    .of "rad_num_steps" false (Rule.int.only (0 ≤ ·) .greaterThanEqual) fun n c => { c with radiationSteps := n },
    .of "rad_step_size" false nonNegative fun x c => { c with radiationStepSize := x },
    .of "full_acceleration" false Rule.bool fun b c => { c with fullAcceleration := b },
    .of "delta" false positive fun x c => { c with delta := x },
    .of "tolerance" false positive fun x c => { c with tolerance := x },
    .of "max_iterations" false (Rule.int.only (1 ≤ ·) .greaterThanEqual) fun n c => { c with maxIterations := n },
    .of "bend_scale" false Rule.float fun x c => { c with bendScale := x },
    .of "check_finite" false Rule.bool fun b c => { c with checkFinite := b },
    .of "svd_threshold" false ((Rule.float.only (Scalar.lt · 1) .lessThan).only (Scalar.le 0) .greaterThanEqual)
      fun x c => { c with svdThreshold := x }]
  finish := .ok

end OrbitConfig

/-- Outcome of a closed-orbit search. The residual is `none` when no step measured one, and then counts as
infinite. -/
structure OrbitResult (α : Type) where
  orbit : PhaseVector α
  converged : Bool
  iterations : Int
  residual : Option α
  correction : α

namespace OrbitResult

mutual

def numbers : Datum → Except Fault (Nested Float)
  | .null => .ok (.leaf (0 / 0))
  | .bool b => .ok (.leaf (if b then 1 else 0))
  | .int i => .ok (.leaf (Decimal.ofInt i))
  | .float x => .ok (.leaf x)
  | .text s =>
    match Numeral.float? s with
    | some x => .ok (.leaf x)
    | none => .error (.numberText s)
  | .list items => (numbersList items).map .node
  | .mapping _ => .error (.notANumber "dict")
  | .other typeName => .error (.notANumber typeName)

def numbersList : List Datum → Except Fault (List (Nested Float))
  | [] => .ok []
  | item :: rest => do
    let a ← numbers item
    let as ← numbersList rest
    pure (a :: as)

end

def orbitOf (a : Nested Float) : Except String (PhaseVector Float) :=
  match a.shape? with
  | none => .error (Fault.irregularArray a.shape).message
  | some shape =>
    match a.toList?.bind PhaseVector.ofList? with
    | some v => .ok v
    | none => .error ("orbit must have shape (6,), got " ++ shapeText shape)

def orbitRule : Rule (PhaseVector Float) := fun d =>
  match numbers d with
  | .error (.numberText s) => Rule.refuse (.rule (Fault.numberText s).message)
  | .error fault => .error (.fault fault)
  | .ok a =>
    match orbitOf a with
    | .ok v => .ok v
    | .error text => Rule.refuse (.rule text)

def form : Form (OrbitResult Float) (OrbitResult Float) where
  title := "ClosedOrbitResult"
  home := "ringtrack.simulators.types"
  blank := ⟨0, false, 0, none, 0⟩
  fields := [
    .of "orbit" true orbitRule fun v r => { r with orbit := v },
    .of "converged" true Rule.bool fun b r => { r with converged := b },
    .of "iterations" true (Rule.int.only (0 ≤ ·) .greaterThanEqual) fun n r => { r with iterations := n },
    .of "residual" true OrbitConfig.nonNegative fun x r => { r with residual := some x },
    .of "correction" false OrbitConfig.nonNegative fun x r => { r with correction := x }]
  finish := .ok

def requireConverged (r : OrbitResult Float) : Except Fault (OrbitResult Float) :=
  if r.converged then .ok r else .error (.notConverged r.iterations (r.residual.getD (1 / 0)))

end OrbitResult

end BeamOptics
