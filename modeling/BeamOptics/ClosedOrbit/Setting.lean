import BeamOptics.Settings.Orbit

/-!
# Changing a search

The settings of a search are changed one at a time. The count and the length of radiation steps exclude each other:
setting one resets the other, and switching radiation on goes back to one step.
-/

namespace BeamOptics

inductive OrbitSetting
  | transverseOnly
  | radiation
  | fullAcceleration
  | delta
  | tolerance
  | maxIterations
  | radiationStepSize
  | radiationSteps
  | bendScale
  deriving DecidableEq, Repr

namespace OrbitSetting

def all : List OrbitSetting :=
  [transverseOnly, radiation, fullAcceleration, delta, tolerance, maxIterations, radiationStepSize, radiationSteps,
    bendScale]

def name : OrbitSetting → String
  | transverseOnly => "transverse_only"
  | radiation => "radiation"
  | fullAcceleration => "full_acceleration"
  | delta => "set_delta"
  | tolerance => "set_tolerance"
  | maxIterations => "set_max_iterations"
  | radiationStepSize => "set_rad_step_size"
  | radiationSteps => "set_rad_num_steps"
  | bendScale => "scale_bend_path_length"

def field : OrbitSetting → String
  | transverseOnly => "transverse_only"
  | radiation => "radiation"
  | fullAcceleration => "full_acceleration"
  | delta => "delta"
  | tolerance => "tolerance"
  | maxIterations => "max_iterations"
  | radiationStepSize => "rad_step_size"
  | radiationSteps => "rad_num_steps"
  | bendScale => "bend_scale"

def ofName? (text : String) : Option OrbitSetting := all.find? (·.name == text)

end OrbitSetting

namespace OrbitConfig

def compare (r : Datum.Relation) (d : Datum) (n : Int) : Except Fault Bool :=
  (Datum.relate r d (.int n)).mapError Fault.unordered

def withOneStep (c : OrbitConfig Float) : OrbitConfig Float := { c with radiationSteps := 1, radiationStepSize := 0 }

/-- Changes a setting to an untyped value; a value that is refused changes nothing. -/
def change (c : OrbitConfig Float) (setting : OrbitSetting) (d : Datum) : Except Fault (OrbitConfig Float) :=
  match setting with
  | .radiation => do
    let c ← form.assign c setting.field d
    pure (if d.isTrue then c.withOneStep else c)
  | .radiationStepSize => do
    if ← compare .lessEqual d 0 then throw .radiationStepSize
    let c ← form.assign c setting.field d
    pure { c with radiationSteps := 0 }
  | .radiationSteps => do
    if ← compare .less d 1 then throw .radiationSteps
    let c ← form.assign c setting.field d
    pure { c with radiationStepSize := 0 }
  | _ => form.assign c setting.field d

end OrbitConfig

end BeamOptics
