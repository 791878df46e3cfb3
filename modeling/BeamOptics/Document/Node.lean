import BeamOptics.Document.Token

/-!
# Nodes of a document

Scalars, sequences and mappings, built from tokens. An alias stands for the node that was anchored under its name
before.
-/

namespace BeamOptics

namespace Document

inductive Node where
  | scalar (tag : Option String) (plain : Bool) (text : String)
  | sequence (tag : Option String) (items : List Node)
  | mapping (tag : Option String) (entries : List (Node × Node))

instance : Inhabited Node := ⟨.scalar none true ""⟩

namespace Node

def empty : Node := .scalar none true ""

structure Builder where
  tokens : List Token
  anchors : List (String × Node) := []

abbrev Building (β : Type) := Action Unit Builder β

namespace Building

def refuse {β : Type} : Building β := throw ()

def peek : Building (Option Token) := Action.ask fun b => b.tokens.head?

def skip : Building Unit := modify fun b => { b with tokens := b.tokens.drop 1 }

def takes (t : Token) : Building Bool := do
  if (← peek) = some t then
    skip
    pure true
  else pure false

def expect (t : Token) : Building Unit := do
  if !(← takes t) then refuse

def sees (ts : List Token) : Building Bool := do
  match ← peek with
  | some t => pure (ts.contains t)
  | none => pure false

/-- Anchor and tag of a node, in either order, each at most once. -/
structure Properties where
  anchor : Option String := none
  tag : Option String := none

def properties : Building Properties := do
  match ← peek with
  | some (.anchor a) =>
    skip
    match ← peek with
    | some (.tag t) =>
      skip
      pure ⟨some a, some t⟩
    | _ => pure ⟨some a, none⟩
  | some (.tag t) =>
    skip
    match ← peek with
    | some (.anchor a) =>
      skip
      pure ⟨some a, some t⟩
    | _ => pure ⟨none, some t⟩
  | _ => pure { }

/-- Remembers an anchored node. A name is used once. -/
def remember (p : Properties) (node : Node) : Building Node := do
  match p.anchor with
  | none => pure node
  | some name =>
    if ((← get).anchors.lookup name).isSome then refuse
    modify fun b => { b with anchors := (name, node) :: b.anchors }
    pure node

/-- A lone exclamation mark asks for the reading of a plain scalar. -/
def scalarOf (tag : Option String) (plain : Bool) (text : String) : Node :=
  if tag = some "!" then .scalar none true text else .scalar tag plain text

def collectionTag (tag : Option String) : Option String := if tag = some "!" then none else tag

mutual

def node : Nat → Bool → Bool → Building Node
  | 0, _, _ => refuse
  | fuel + 1, block, afterKey => do
    match ← peek with
    | some (.alias name) =>
      skip
      match (← get).anchors.lookup name with
      | some node => pure node
      | none => refuse
    | _ =>
      let p ← properties
      match ← peek with
      | some (.scalar text plain) =>
        skip
        remember p (scalarOf p.tag plain text)
      | some .flowSequence =>
        skip
        let items ← flowItems fuel true []
        remember p (.sequence (collectionTag p.tag) items)
      | some .flowMapping =>
        skip
        let entries ← flowEntries fuel true []
        remember p (.mapping (collectionTag p.tag) entries)
      | some .entry =>
        if afterKey then
          let items ← looseItems fuel []
          remember p (.sequence (collectionTag p.tag) items)
        else unwritten p
      | some .blockSequence =>
        if !block then refuse
        skip
        let items ← blockItems fuel []
        remember p (.sequence (collectionTag p.tag) items)
      | some .blockMapping =>
        if !block then refuse
        skip
        let entries ← blockEntries fuel []
        remember p (.mapping (collectionTag p.tag) entries)
      | _ => unwritten p

def unwritten (p : Properties) : Building Node :=
  if p.anchor.isNone && p.tag.isNone then refuse else remember p (scalarOf p.tag true "")

def nodeUnless (fuel : Nat) (ends : List Token) (block afterKey : Bool) : Building Node := do
  if (← peek).isNone || (← sees ends) then pure empty else node fuel block afterKey

def blockItems : Nat → List Node → Building (List Node)
  | 0, _ => refuse
  | fuel + 1, items => do
    if ← takes .entry then
      let item ← nodeUnless fuel [.entry, .blockEnd] true false
      blockItems fuel (items ++ [item])
    else
      expect .blockEnd
      pure items

/-- Entries of a sequence that stands at the indentation of the key before it. -/
def looseItems : Nat → List Node → Building (List Node)
  | 0, _ => refuse
  | fuel + 1, items => do
    if ← takes .entry then
      let item ← nodeUnless fuel [.entry, .key, .value, .blockEnd] true false
      looseItems fuel (items ++ [item])
    else pure items

def blockEntries : Nat → List (Node × Node) → Building (List (Node × Node))
  | 0, _ => refuse
  | fuel + 1, entries => do
    if ← takes .key then
      let key ← nodeUnless fuel [.key, .value, .blockEnd] true true
      let value ←
        if ← takes .value then nodeUnless fuel [.key, .value, .blockEnd] true true
        else pure empty
      blockEntries fuel (entries ++ [(key, value)])
    else
      expect .blockEnd
      pure entries

/-- Items between square brackets. A key among them makes a mapping of a single entry. -/
def flowItems : Nat → Bool → List Node → Building (List Node)
  | 0, _, _ => refuse
  | fuel + 1, first, items => do
    if ← takes .flowSequenceEnd then pure items
    else
      if !first then expect .flowEntry
      if ← takes .key then
        let key ← nodeUnless fuel [.value, .flowEntry, .flowSequenceEnd] false false
        let value ←
          if ← takes .value then nodeUnless fuel [.flowEntry, .flowSequenceEnd] false false
          else pure empty
        flowItems fuel false (items ++ [.mapping none [(key, value)]])
      else if ← takes .flowSequenceEnd then pure items
      else
        let item ← node fuel false false
        flowItems fuel false (items ++ [item])

def flowEntries : Nat → Bool → List (Node × Node) → Building (List (Node × Node))
  | 0, _, _ => refuse
  | fuel + 1, first, entries => do
    if ← takes .flowMappingEnd then pure entries
    else
      if !first then expect .flowEntry
      if ← takes .key then
        let key ← nodeUnless fuel [.value, .flowEntry, .flowMappingEnd] false false
        let value ←
          if ← takes .value then nodeUnless fuel [.flowEntry, .flowMappingEnd] false false
          else pure empty
        flowEntries fuel false (entries ++ [(key, value)])
      else if ← takes .flowMappingEnd then pure entries
      else
        let key ← node fuel false false
        flowEntries fuel false (entries ++ [(key, empty)])

end

def skipDirectives : Nat → Building Unit
  | 0 => pure ()
  | fuel + 1 => do
    if ← takes .directive then skipDirectives fuel

def skipEnds : Nat → Building Unit
  | 0 => pure ()
  | fuel + 1 => do
    if ← takes .documentEnd then skipEnds fuel

/-- The start of a document: directives need a mark behind them, and a mark needs none before it. -/
def documentStart (count : Nat) : Building Unit := do
  if ← sees [.directive, .documentStart] then
    skipDirectives count
    expect .documentStart

def document : Building (Option Node) := do
  let count := (← get).tokens.length
  if (← peek).isNone then pure none
  else
    let marked ← sees [.directive, .documentStart]
    documentStart count
    let fuel := 2 * count + 4
    let node ←
      if marked then nodeUnless fuel [.directive, .documentStart, .documentEnd] true false
      else node fuel true false
    skipEnds count
    if (← peek).isSome then refuse
    pure (some node)

end Building

/-- The document of a list of tokens: `some none` if it is empty, `none` if the tokens make no document. -/
def ofTokens? (tokens : List Token) : Option (Option Node) :=
  match Building.document.run { tokens } with
  | (.ok node, _) => some node
  | (.error (), _) => none

end Node

end Document

end BeamOptics
