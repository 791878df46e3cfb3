import BeamOptics.Document.Node
import BeamOptics.Document.PlainScalar

/-!
# Documents

A settings document as an untyped value. Of equal keys in a mapping the last one counts, at the place of the first.

Tags for texts, whole numbers, floats, nothing, truth values, sequences and mappings are read. The further tags of the
common kind, for binary data, dates, sets, ordered mappings and lists of pairs, are left out: a document with one of
them counts as unreadable.
-/

namespace BeamOptics

namespace Document

/-- Puts an entry into a mapping; an equal key keeps its place and takes the new value. -/
def insert (entries : List (Datum × Datum)) (key value : Datum) : List (Datum × Datum) :=
  if entries.any fun entry => Datum.equal entry.1 key then
    entries.map fun entry => if Datum.equal entry.1 key then (entry.1, value) else entry
  else entries ++ [(key, value)]

def insertAll (entries more : List (Datum × Datum)) : List (Datum × Datum) :=
  more.foldl (fun entries entry => insert entries entry.1 entry.2) entries

def isKey : Datum → Bool
  | .list _ | .mapping _ => false
  | _ => true

/-- A key that takes over the entries of other mappings. -/
def Node.isMerge : Node → Bool
  | .scalar none true text => text == "<<"
  | _ => false

/-- Entries to take over: those of a mapping, or of several, of which the first counts most. -/
def merged : Datum → Option (List (Datum × Datum))
  | .mapping entries => some entries
  | .list items => items.foldrM (fun item all =>
      match item with
      | .mapping entries => some (insertAll all entries)
      | _ => none) []
  | _ => none

/-- A tag of the common kind, by what follows its two exclamation marks. -/
def tagName? (tag : String) : Option String :=
  match tag.toList with
  | '!' :: '!' :: name => some (String.ofList name)
  | _ => none

def tagged? (tag text : String) : Option Datum :=
  match tagName? tag with
  | some "str" => some (.text text)
  | some "int" => (PlainScalar.int? text).map .int
  | some "float" => ((PlainScalar.float? text).orElse fun _ => Numeral.float? text).map .float
  | some "null" => some .null
  | some "bool" =>
    match PlainScalar.read text with
    | .bool b => some (.bool b)
    | _ => none
  | _ => none

def isTag (tag : Option String) (name : String) : Bool := tag.all fun tag => tagName? tag == some name

def scalarDatum? (tag : Option String) (plain : Bool) (text : String) : Option Datum :=
  match tag with
  | some tag => tagged? tag text
  | none =>
    if !plain then some (.text text)
    else if text = "<<" ∨ text = "=" then none
    else some (PlainScalar.read text)

mutual

def datum? : Node → Option Datum
  | .scalar tag plain text => scalarDatum? tag plain text
  | .sequence tag items => if isTag tag "seq" then (datumList? items).map .list else none
  | .mapping tag entries =>
    if isTag tag "map" then
      match takenOver? entries, ownEntries? entries with
      | some before, some own => some (.mapping (insertAll before own))
      | _, _ => none
    else none

def datumList? : List Node → Option (List Datum)
  | [] => some []
  | node :: rest =>
    match datum? node, datumList? rest with
    | some d, some ds => some (d :: ds)
    | _, _ => none

/-- Entries that a mapping takes over, later mergings over earlier ones. -/
def takenOver? : List (Node × Node) → Option (List (Datum × Datum))
  | [] => some []
  | (key, value) :: rest =>
    if key.isMerge then
      match (datum? value).bind merged, takenOver? rest with
      | some first, some later => some (insertAll first later)
      | _, _ => none
    else takenOver? rest

def ownEntries? : List (Node × Node) → Option (List (Datum × Datum))
  | [] => some []
  | (key, value) :: rest =>
    if key.isMerge then ownEntries? rest
    else
      match keyDatum? key, datum? value, ownEntries? rest with
      | some k, some v, some more => if isKey k then some ((k, v) :: more) else none
      | _, _, _ => none

/-- A key; an equals sign is an ordinary key. -/
def keyDatum? : Node → Option Datum
  | .scalar none true text => if text = "=" then some (.text text) else scalarDatum? none true text
  | .scalar tag plain text => scalarDatum? tag plain text
  | .sequence tag items => if isTag tag "seq" then (datumList? items).map .list else none
  | .mapping .. => none

end

def joinLineEnds : List Char → List Char
  | '\r' :: '\n' :: rest => '\n' :: joinLineEnds rest
  | '\r' :: rest => '\n' :: joinLineEnds rest
  | c :: rest => c :: joinLineEnds rest
  | [] => []

def isAllowed (c : Char) : Bool :=
  let n := c.toNat
  n = 9 || n = 10 || n = 13 || (0x20 ≤ n && n ≤ 0x7E) || n = 0x85 || (0xA0 ≤ n && n ≤ 0xD7FF) ||
    (0xE000 ≤ n && n ≤ 0xFFFD) || 0x10000 ≤ n

def withoutMark : List Char → List Char
  | c :: rest => if c.toNat = 0xFEFF then rest else c :: rest
  | [] => []

/-- Reads a document; an empty one is nothing. -/
def read? (text : String) : Option Datum := do
  let cs := joinLineEnds text.toList
  if !cs.all isAllowed then none
  else
    let tokens ← tokens? (withoutMark cs)
    match ← Node.ofTokens? tokens with
    | some node => datum? node
    | none => some .null

end Document

end BeamOptics
