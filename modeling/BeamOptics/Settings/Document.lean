import BeamOptics.Document.Reading
import BeamOptics.Settings.Beam
import BeamOptics.Settings.Orbit
import BeamOptics.Settings.Tracker

/-!
# Settings documents

A document has up to three sections, each optional and possibly empty. An unknown section is refused before any
section is read; then the sections are read in a fixed order, whatever their order in the document.
-/

namespace BeamOptics

structure Settings where
  orbit : OrbitConfig Float := OrbitConfig.standard
  tracker : TrackerConfig := { }
  beam : Option (ReferenceBeam Float) := none

namespace Settings

def sections : List String := ["closed_orbit", "tracker", "beam"]

def isSection : Datum → Bool
  | .text name => sections.contains name
  | _ => false

/-- The first neighbours that have no order between them. -/
def clash? : List Datum → Option Datum.Unordered
  | a :: b :: rest =>
    match Datum.relate .less b a with
    | .error clash => some clash
    | .ok _ => clash? (b :: rest)
  | _ => none

def before (a b : Datum) : Bool :=
  match Datum.relate .less b a with
  | .ok later => !later
  | .error _ => true

/-- Sorts section names. Names that have no order between them cannot be listed. -/
def sortNames (names : List Datum) : Except Fault (List Datum) :=
  match clash? names with
  | some clash => .error (.unordered clash)
  | none => .ok (names.mergeSort before)

def sectionValue? (entries : List (Datum × Datum)) (name : String) : Option Datum :=
  match entries.find? fun entry => Datum.equal entry.1 (.text name) with
  | some (_, .null) => none
  | some (_, d) => some d
  | none => none

/-- A section under its form; without a value, the default. -/
def section? {δ τ : Type} (entries : List (Datum × Datum)) (name : String) (form : Form δ τ) (otherwise : τ) :
    Except Fault τ :=
  match sectionValue? entries name with
  | none => .ok otherwise
  | some d => form.readDatum d

def ofDatum : Datum → Except Fault Settings
  | .null => .ok { }
  | .mapping entries =>
    let unknown := (entries.map Prod.fst).filter fun name => !isSection name
    if unknown.isEmpty then do
      let orbit ← section? entries "closed_orbit" OrbitConfig.form OrbitConfig.standard
      let tracker ← section? entries "tracker" TrackerConfig.form { }
      let beam ← (sectionValue? entries "beam").mapM ReferenceBeam.form.readDatum
      pure { orbit, tracker, beam }
    else do
      let names ← sortNames unknown
      throw (.unknownSections names)
  | d => .error (.settingsType d.typeName)

def ofText (text : String) : Except Fault Settings :=
  match Document.read? text with
  | some d => ofDatum d
  | none => .error .unreadableDocument

end Settings

end BeamOptics
