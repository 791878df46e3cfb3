import BeamOptics.Datum
import BeamOptics.Nested
import BeamOptics.Scalar
import BeamOptics.Segment

/-!
# Faults

Every cause for which an operation fails, and its wording.
-/

namespace BeamOptics

inductive IssueKind
  | missing
  | extraForbidden
  | noSuchAttribute
  | frozenInstance
  | intFromFloat
  | finiteNumber
  | intParsing
  | intParsingSize
  | intType
  | floatParsing
  | floatType
  | boolParsing
  | boolType
  | stringType
  | stringTooShort
  | greaterThan
  | greaterThanEqual
  | lessThan
  /-- A rule of the form itself, in words. -/
  | rule (text : String)
  deriving DecidableEq, Repr

def IssueKind.name : IssueKind → String
  | missing => "missing"
  | extraForbidden => "extra_forbidden"
  | noSuchAttribute => "no_such_attribute"
  | frozenInstance => "frozen_instance"
  | intFromFloat => "int_from_float"
  | finiteNumber => "finite_number"
  | intParsing => "int_parsing"
  | intParsingSize => "int_parsing_size"
  | intType => "int_type"
  | floatParsing => "float_parsing"
  | floatType => "float_type"
  | boolParsing => "bool_parsing"
  | boolType => "bool_type"
  | stringType => "string_type"
  | stringTooShort => "string_too_short"
  | greaterThan => "greater_than"
  | greaterThanEqual => "greater_than_equal"
  | lessThan => "less_than"
  | rule _ => "value_error"

structure Issue where
  field : String
  kind : IssueKind
  deriving DecidableEq, Repr

inductive Fault where
  /-- An elementary function refused its argument. -/
  | math (fault : MathFault)
  -- elements and their attributes
  | unnamedElement
  | negativeLength (element : String)
  | longMarker
  | shortBend
  | unknownCorrectorPlane
  | mapShape (element : String)
  | kickShape (element : String)
  | unknownAttribute (element signal : String)
  | fixedAttribute (element signal : String)
  | noCurvature (kind : String)
  -- channels
  | noReadChannel (element signal : String)
  | noWriteChannel (element signal : String)
  | readOnlyChannel (channel : String)
  | noWriter (operation : String)
  | valueCount (expected actual : Nat)
  -- sources, models and ranges
  | unnamedSource
  | idleSource (source : String)
  | sourceOutside (source : String) (index : Int)
  | unnamedModel
  | foreignMember
  | foreignElement
  | repeatedElement (element : String)
  | emptyLine (model : String)
  | zeroLength (model : String)
  | indexOutside (index model : String) (count : Nat)
  | reversedRange (first last : String)
  -- bunches and arrays
  | momentumNotPositive
  | coordinateCount (shape : List Nat)
  | vectorShape (shape : List Nat)
  | scalarParticles
  | emptyBunch
  | rowOutside (index : Int) (size : Nat)
  | negativeCopies
  | irregularArray (shape : List Nat)
  | numberText (text : String)
  | notANumber (typeName : String)
  | unequalDimensions (count : Nat)
  | unfitShape (shape : List Nat)
  | stackedBunch
  -- segments
  | lengthOverflow
  | segmentArgument (argument : Datum)
  | invalidSegment (first last : String)
  | beyondLine (segment line : Segment)
  | noActiveSegment (accelerator : String)
  | unordered (clash : Datum.Unordered)
  | tooFewParts (count : Nat)
  | tooManyParts
  | indivisible (typeName : String)
  -- processes and tracking
  | radiationSteps
  | radiationStepSize
  | nonFinite (element : String) (particles : List Nat) (detailed : Bool)
  | failedAt (index : Nat) (cause : Fault)
  | noRange (tracker : String)
  | noInitialBunch (tracker : String)
  | stepperIdle
  | stepperPastEnd
  -- states
  | negativeStates
  | unknownState (accelerator state : String)
  | notAnIndex (typeName : String)
  | unhashable (typeName : String)
  | unknownPlane (plane : String)
  -- closed orbits
  | guessShape (shape : List Nat)
  | startShape (shape : List Nat)
  | noDecomposition
  | notConverged (iterations : Int) (residual : Float)
  -- forms and settings
  | validation (form : String) (issues : List Issue)
  | settingsType (typeName : String)
  | unknownSections (names : List Datum)
  | sectionType (form typeName : String)
  | keywordType
  | noSettingsFile (path : String)
  | unreadableDocument
  -- patterns, lists and names
  | badPattern
  | listIndex
  | unbound (name : String)
  | wrongObject (name : String)
  | interrupted (text : String)

instance : Inhabited Fault := ⟨.badPattern⟩

def MathFault.message : MathFault → String
  | domain => "math domain error"
  | range => "math range error"
  | powerOverflow => "(34, 'Numerical result out of range')"
  | divisionByZero => "float division by zero"
  | infinityToInteger => "cannot convert float infinity to integer"
  | nanToInteger => "cannot convert float NaN to integer"

def listText (items : List String) : String := "[" ++ ", ".intercalate items ++ "]"

/-- A shape in parentheses, a single length with a comma after it. -/
def shapeText : List Nat → String
  | [n] => s!"({n},)"
  | shape => "(" ++ ", ".intercalate (shape.map toString) ++ ")"

namespace Fault

def message : Fault → String
  | math fault => fault.message
  | unnamedElement => "Element must have a name."
  | negativeLength element => s!"Length of element '{element}' must be non-negative."
  | longMarker => "Length of a marker element must be zero."
  | shortBend => "Length of a sector bend must be positive."
  | unknownCorrectorPlane => "Corrector plane must be either 'x' or 'y'."
  | mapShape element => s!"Matrix of element '{element}' must be 6x6."
  | kickShape element => s!"Kick of element '{element}' must have 6 components."
  | unknownAttribute element signal => s!"Element '{element}' has no channel attribute '{signal}'."
  | fixedAttribute element signal => s!"Channel attribute '{signal}' of element '{element}' is not writable."
  | noCurvature kind => s!"'{kind}' object has no attribute 'curvature'"
  | noReadChannel element signal => s!"Element '{element}' has no channel attribute '{signal}'."
  | noWriteChannel element signal => s!"Attribute '{signal}' of element '{element}' is not writable."
  | readOnlyChannel channel => s!"Channel {channel} is read-only"
  | noWriter operation => s!"'ROChannel' object has no attribute '{operation}'"
  | valueCount expected actual => s!"Expected {expected} values, got {actual}"
  | unnamedSource => "RF power source must have a name."
  | idleSource source => s!"RF power source '{source}' must drive at least one beamline location."
  | sourceOutside source index => s!"RF power source '{source}' drives index {index} outside the beamline."
  | unnamedModel => "Beamline model must have a name."
  | foreignMember => "All elements in the beamline must be instances of Element."
  | foreignElement => "Element must be an instance of Element."
  | repeatedElement element => s!"Element '{element}' already exists in the beamline."
  | emptyLine model => s!"Beamline '{model}' contains no elements."
  | zeroLength model => s!"Beamline '{model}' has zero total length"
  | indexOutside index model count => s!"Index {index} outside beamline '{model}' of {count} elements."
  | reversedRange first last => s!"Invalid range [{first}, {last}]: first index exceeds last index."
  | momentumNotPositive => "Reference momentum must be positive"
  | coordinateCount shape => "Particles must have 6 coordinates, got shape " ++ shapeText shape
  | vectorShape shape => "Phase-space vector must have shape (6,), got " ++ shapeText shape
  | scalarParticles => "tuple index out of range"
  | emptyBunch => "Bunch is empty"
  | rowOutside index size => s!"index {index} is out of bounds for axis 0 with size {size}"
  | negativeCopies => "negative dimensions are not allowed"
  | irregularArray shape =>
    "setting an array element with a sequence. The requested array " ++
      if Nested.mostAxes ≤ shape.length then s!"would exceed the maximum number of dimension of {Nested.mostAxes}."
      else
        s!"has an inhomogeneous shape after {shape.length} dimensions. The detected shape was " ++
          shapeText shape ++ " + inhomogeneous part."
  | numberText text => "could not convert string to float: " ++ Text.quoted text
  | notANumber typeName => s!"float() argument must be a string or a real number, not '{typeName}'"
  | unequalDimensions count =>
    "all the input arrays must have same number of dimensions, but the array at index 0 has " ++
      s!"{count} dimension(s) and the array at index 1 has 2 dimension(s)"
  | unfitShape shape => "could not broadcast input array from shape (6,) into shape " ++ shapeText shape
  | stackedBunch => "Particles of a bunch must form a table"
  | lengthOverflow => "cannot fit 'int' into an index-sized integer"
  | segmentArgument argument => "Segment must be a Segment or a (first, last) pair, got " ++ argument.literal
  | invalidSegment first last => s!"Invalid segment [{first}, {last}]"
  | beyondLine segment line => s!"Segment {segment.text} extends beyond beamline {line.text}"
  | noActiveSegment accelerator => s!"{accelerator}: no segment given and no active segment set"
  | unordered clash =>
    s!"'{clash.relation.symbol}' not supported between instances of '{clash.left}' and '{clash.right}'"
  | tooFewParts count => s!"not enough values to unpack (expected 2, got {count})"
  | tooManyParts => "too many values to unpack (expected 2)"
  | indivisible typeName => s!"cannot unpack non-iterable {typeName} object"
  | radiationSteps => "Number of radiation steps must be at least 1"
  | radiationStepSize => "Radiation step size must be positive"
  | nonFinite element particles _ =>
    s!"Non-finite coordinates after element '{element}' in particles " ++ listText (particles.map toString)
  | failedAt index cause => s!"Tracking failed at element {index}: " ++ cause.message
  | noRange tracker => s!"Tracker '{tracker}' has no active beamline range"
  | noInitialBunch tracker => s!"Tracker '{tracker}' has no initial bunch"
  | stepperIdle => "Stepper has not been initialised"
  | stepperPastEnd => "Stepper has passed the end of the active range"
  | negativeStates => "Number of states must be non-negative"
  | unknownState accelerator state => s!"{accelerator}: state {state} has not been initialised"
  | notAnIndex typeName => s!"'{typeName}' object cannot be interpreted as an integer"
  | unhashable typeName => s!"unhashable type: '{typeName}'"
  | unknownPlane plane => Text.quoted plane ++ " is not a valid Plane"
  | guessShape shape => "Guess must have shape (6,), got " ++ shapeText shape
  | startShape shape => "Vector must have shape (6,), got " ++ shapeText shape
  | noDecomposition => "SVD did not converge"
  | notConverged iterations residual =>
    s!"Closed orbit did not converge after {iterations} iterations (residual " ++
      Decimal.scientific residual 3 ++ ")"
  | validation form _ => form
  | settingsType typeName => s!"Settings must be a mapping, got {typeName}"
  | unknownSections names => "Unknown settings sections: " ++ listText (names.map Datum.literal)
  | sectionType form typeName => s!"{form}() argument after ** must be a mapping, not {typeName}"
  | keywordType => "keywords must be strings"
  | noSettingsFile path => s!"Settings file not found at {path}"
  | unreadableDocument => ""
  | badPattern => ""
  | listIndex => "list index out of range"
  | unbound name => name
  | wrongObject name => name
  | interrupted text => text

/-- The faults that belong to a simulation, and pass through tracking as they are. -/
def isSimulation : Fault → Bool
  | nonFinite .. | failedAt .. | noRange _ | noInitialBunch _ | stepperIdle | stepperPastEnd => true
  | emptyLine _ | zeroLength _ | indexOutside .. | reversedRange .. => true
  | segmentArgument _ | invalidSegment .. | beyondLine .. | noActiveSegment _ => true
  | unknownState .. | notConverged .. | settingsType _ | unknownSections _ => true
  | _ => false

end Fault

/-- The outcome of an elementary function as an outcome of an operation. -/
def ofMath {β : Type} (r : Except MathFault β) : Except Fault β := r.mapError Fault.math

end BeamOptics
