import BeamOptics.Decimal.Numeral
import BeamOptics.Fault

/-!
# Forms

Named fields read from untyped values. All issues of a form are gathered: the declared fields in their order,
then the keys that no field has. A rule over the whole form comes last.
-/

namespace BeamOptics

/-- Why a rule does not take a value: an issue of its field, or a fault that ends the reading. -/
inductive Refusal
  | issue (kind : IssueKind)
  | fault (fault : Fault)

abbrev Rule (β : Type) := Datum → Except Refusal β

namespace Rule

variable {β γ : Type}

def refuse (kind : IssueKind) : Except Refusal β := .error (.issue kind)

def orRefuse (kind : IssueKind) : Option β → Except Refusal β
  | some b => .ok b
  | none => refuse kind

def only (rule : Rule β) (holds : β → Bool) (kind : IssueKind) : Rule β := fun d => do
  let b ← rule d
  if holds b then pure b else refuse kind

/-- Whole numbers of a word lie below this limit, the 63rd power of two. -/
def wordLimit : Int := 9223372036854775808

/-- A float as a whole number that fits into a word. -/
def wholeOf (x : Float) : Except Refusal Int :=
  if x.isFinite then
    match (Datum.float x).whole? with
    | some i => if -wordLimit < i && i < wordLimit then .ok i else refuse .intParsingSize
    | none => refuse .intFromFloat
  else refuse .finiteNumber

def int : Rule Int
  | .bool b => .ok (if b then 1 else 0)
  | .int i => .ok i
  | .float x => wholeOf x
  | .text s => orRefuse .intParsing (Numeral.int? s)
  | _ => refuse .intType

def float : Rule Float
  | .bool b => .ok (if b then 1 else 0)
  | .int i => if (Decimal.ofInt i).isFinite then .ok (Decimal.ofInt i) else refuse .floatType
  | .float x => .ok x
  | .text s => orRefuse .floatParsing (Numeral.float? s)
  | _ => refuse .floatType

def falseWords : List String := ["0", "off", "f", "false", "n", "no"]

def trueWords : List String := ["1", "on", "t", "true", "y", "yes"]

def boolOfInt (i : Int) : Except Refusal Bool :=
  if i = 0 then .ok false else if i = 1 then .ok true else refuse .boolParsing

def boolOfWord (word : String) : Except Refusal Bool :=
  if falseWords.contains word then .ok false
  else if trueWords.contains word then .ok true
  else refuse .boolParsing

def bool : Rule Bool
  | .bool b => .ok b
  | .int i => if -wordLimit ≤ i && i < wordLimit then boolOfInt i else refuse .boolType
  | .float x =>
    match wholeOf x with
    | .ok i => boolOfInt i
    | .error _ => refuse .boolType
  | .text s => boolOfWord s.toLower
  | _ => refuse .boolType

def text : Rule String
  | .text s => .ok s
  | _ => refuse .stringType

end Rule

structure Field (δ : Type) where
  name : String
  required : Bool
  fill : Datum → Except Refusal (δ → δ)

def Field.of {δ β : Type} (name : String) (required : Bool) (rule : Rule β) (put : β → δ → δ) : Field δ where
  name
  required
  fill d := (rule d).map put

/-- A form is filled into a draft, which starts from the defaults and is finished into a value. -/
structure Form (δ τ : Type) where
  title : String
  home : String
  blank : δ
  fields : List (Field δ)
  finish : δ → Except String τ

namespace Form

variable {δ τ : Type}

def fillField (entries : List (String × Datum)) (field : Field δ) (draft : δ) (issues : List Issue) :
    Except Fault (δ × List Issue) :=
  match entries.lookup field.name with
  | none => .ok (draft, if field.required then issues ++ [⟨field.name, .missing⟩] else issues)
  | some d =>
    match field.fill d with
    | .ok put => .ok (put draft, issues)
    | .error (.issue kind) => .ok (draft, issues ++ [⟨field.name, kind⟩])
    | .error (.fault fault) => .error fault

def fillFields (entries : List (String × Datum)) :
    List (Field δ) → δ → List Issue → Except Fault (δ × List Issue)
  | [], draft, issues => .ok (draft, issues)
  | field :: rest, draft, issues => do
    let (draft, issues) ← fillField entries field draft issues
    fillFields entries rest draft issues

def hasField (form : Form δ τ) (name : String) : Bool := form.fields.any (·.name == name)

/-- Keys that belong to no field. -/
def extras (form : Form δ τ) (entries : List (String × Datum)) : List Issue :=
  (entries.filter fun entry => !form.hasField entry.1).map fun entry => ⟨entry.1, .extraForbidden⟩

/-- Reads a form from entries under distinct names. -/
def read (form : Form δ τ) (entries : List (String × Datum)) : Except Fault τ := do
  let (draft, issues) ← fillFields entries form.fields form.blank []
  match issues ++ form.extras entries with
  | [] =>
    match form.finish draft with
    | .ok t => .ok t
    | .error text => .error (.validation form.title [⟨"", .rule text⟩])
  | issues => .error (.validation form.title issues)

def entryName : Datum × Datum → Except Fault (String × Datum)
  | (.text name, d) => .ok (name, d)
  | _ => .error .keywordType

/-- Reads a form from an untyped value, which has to be a mapping with text keys. -/
def readDatum (form : Form δ τ) : Datum → Except Fault τ
  | .mapping entries => do
    let entries ← entries.mapM entryName
    form.read entries
  | d => .error (.sectionType (form.home ++ "." ++ form.title) d.typeName)

/-- Changes one field of a finished value under the rule of that field. -/
def assign (form : Form τ τ) (t : τ) (name : String) (d : Datum) : Except Fault τ :=
  match form.fields.find? (·.name == name) with
  | none => .error (.validation form.title [⟨name, .noSuchAttribute⟩])
  | some field =>
    match field.fill d with
    | .ok put => .ok (put t)
    | .error (.issue kind) => .error (.validation form.title [⟨name, kind⟩])
    | .error (.fault fault) => .error fault

end Form

end BeamOptics
