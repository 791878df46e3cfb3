import BeamOptics.Form
import BeamOptics.Settings.LogLevel

/-!
# Tracker settings
-/

namespace BeamOptics

structure TrackerConfig where
  name : String := "linear"
  level : LogLevel := .info
  deriving DecidableEq, Repr

namespace TrackerConfig

def levelRule : Rule LogLevel := fun d => do
  let word ← Rule.text d
  match LogLevel.ofText? word with
  | some level => pure level
  | none => Rule.refuse (.rule ("log_level must be one of " ++ listText (LogLevel.all.map fun l => Text.quoted l.name)))

def form : Form TrackerConfig TrackerConfig where
  title := "TrackerConfiguration"
  home := "ringtrack.simulators.types"
  blank := { }
  fields := [
    .of "name" false (Rule.text.only (·.length ≥ 1) .stringTooShort) fun name t => { t with name },
    .of "log_level" false levelRule fun level t => { t with level }]
  finish := .ok

end TrackerConfig

end BeamOptics
