import BeamOptics.Action
import BeamOptics.Document.ScalarText

/-!
# Tokens of a document

A document as a list of marks and scalars. Indentation opens and closes blocks. A key is seen to be one only at the
colon behind it, so its mark is put in front of it afterwards; such a key stands on one line and is short.
-/

namespace BeamOptics

namespace Document

inductive Token where
  | directive
  | documentStart
  | documentEnd
  | blockSequence
  | blockMapping
  | blockEnd
  | flowSequence
  | flowSequenceEnd
  | flowMapping
  | flowMappingEnd
  | entry
  | flowEntry
  | key
  | value
  | alias (name : String)
  | anchor (name : String)
  | tag (name : String)
  | scalar (text : String) (plain : Bool)
  deriving DecidableEq, Repr

/-- Something that turns out to be a key if a colon follows. -/
structure PossibleKey where
  /-- How many tokens stand before it. -/
  place : Nat
  /-- Whether it can be nothing else than a key. -/
  required : Bool
  line : Nat
  column : Nat
  /-- Length of the text that was left where it began. -/
  left : Nat

structure Scan where
  cursor : Cursor
  tokens : List Token := []
  /-- Open brackets. -/
  depth : Nat := 0
  /-- Column of the innermost block, -1 outside all blocks. -/
  indent : Int := -1
  outer : List Int := []
  keyAllowed : Bool := true
  /-- Possible keys, by depth of brackets. -/
  keys : List (Nat × PossibleKey) := []

abbrev Scanning (β : Type) := Action Unit Scan β

namespace Scanning

def refuse {β : Type} : Scanning β := throw ()

def require {β : Type} : Option β → Scanning β
  | some b => pure b
  | none => refuse

def emit (t : Token) : Scanning Unit := modify fun s => { s with tokens := s.tokens ++ [t] }

def emitAt (place : Nat) (t : Token) : Scanning Unit :=
  modify fun s => { s with tokens := s.tokens.take place ++ t :: s.tokens.drop place }

def skip (n : Nat) : Scanning Unit := modify fun s => { s with cursor := s.cursor.skip n }

def allowKey (allowed : Bool) : Scanning Unit := modify fun s => { s with keyAllowed := allowed }

def inBlock : Scanning Bool := Action.ask fun s => s.depth == 0

def column : Scanning Int := Action.ask fun s => s.cursor.column

def skipGap : Nat → Scanning Unit
  | 0 => pure ()
  | fuel + 1 => do
    modify fun s => { s with cursor := s.cursor.skipWhile (· = ' ') }
    if (← get).cursor.sees (· = '#') then
      modify fun s => { s with cursor := s.cursor.skipWhile fun c => !isBreak c }
    if (← get).cursor.sees isBreak then
      modify fun s => { s with cursor := s.cursor.takeBreak.2, keyAllowed := s.keyAllowed || s.depth == 0 }
      skipGap fuel

def keyLimit : Nat := 1024

def PossibleKey.stale (s : Scan) (k : PossibleKey) : Bool :=
  k.line ≠ s.cursor.line || keyLimit < k.left - s.cursor.rest.length

/-- Gives up possible keys that are too far away. -/
def dropStale : Scanning Unit := do
  let s ← get
  if s.keys.any fun entry => PossibleKey.stale s entry.2 && entry.2.required then refuse
  set { s with keys := s.keys.filter fun entry => !PossibleKey.stale s entry.2 }

/-- Closes blocks that are indented deeper than a column. -/
def unwindFrom (column : Int) : List Int → Int → Scanning Unit
  | outer, indent => do
    if column < indent then
      emit .blockEnd
      match outer with
      | next :: rest => unwindFrom column rest next
      | [] => modify fun s => { s with indent := -1, outer := [] }
    else modify fun s => { s with indent, outer }

def unwind (column : Int) : Scanning Unit := do
  let s ← get
  if s.depth = 0 then unwindFrom column s.outer s.indent

def opens (column : Int) : Scanning Bool := do
  let s ← get
  if s.indent < column then
    set { s with outer := s.indent :: s.outer, indent := column }
    pure true
  else pure false

def dropKey : Scanning Unit := do
  let s ← get
  match s.keys.lookup s.depth with
  | some k => if k.required then refuse
  | none => pure ()
  set { s with keys := s.keys.filter fun entry => entry.1 ≠ s.depth }

def saveKey : Scanning Unit := do
  let s ← get
  if s.keyAllowed then
    dropKey
    let k : PossibleKey := {
      place := s.tokens.length
      required := s.depth == 0 && s.indent == s.cursor.column
      line := s.cursor.line
      column := s.cursor.column
      left := s.cursor.rest.length }
    modify fun s => { s with keys := (s.depth, k) :: s.keys }

/-- Ends all blocks before a mark that stands outside of them. -/
def leaveBlocks : Scanning Unit := do
  unwind (-1)
  dropKey
  allowKey false

def directive : Scanning Unit := do
  leaveBlocks
  modify fun s => { s with cursor := s.cursor.skipWhile fun c => !isBreak c }
  emit .directive

def marker (t : Token) : Scanning Unit := do
  leaveBlocks
  skip 3
  emit t

def openFlow (t : Token) : Scanning Unit := do
  saveKey
  modify fun s => { s with depth := s.depth + 1 }
  allowKey true
  skip 1
  emit t

def closeFlow (t : Token) : Scanning Unit := do
  dropKey
  if (← get).depth = 0 then refuse
  modify fun s => { s with depth := s.depth - 1 }
  allowKey false
  skip 1
  emit t

def flowEntry : Scanning Unit := do
  allowKey true
  dropKey
  skip 1
  emit .flowEntry

def openBlock (t : Token) : Scanning Unit := do
  if ← inBlock then
    if !(← get).keyAllowed then refuse
    if ← opens (← column) then emit t

def blockEntry : Scanning Unit := do
  openBlock .blockSequence
  allowKey true
  dropKey
  skip 1
  emit .entry

def explicitKey : Scanning Unit := do
  openBlock .blockMapping
  allowKey (← inBlock)
  dropKey
  skip 1
  emit .key

/-- A colon: what stands before it on the line becomes a key, if it can be one. -/
def valueMark : Scanning Unit := do
  let s ← get
  match s.keys.lookup s.depth with
  | some k =>
    set { s with keys := s.keys.filter fun entry => entry.1 ≠ s.depth }
    emitAt k.place .key
    if ← inBlock then
      if ← opens k.column then emitAt k.place .blockMapping
    allowKey false
  | none =>
    openBlock .blockMapping
    allowKey (← inBlock)
    dropKey
  skip 1
  emit .value

def isNameChar (c : Char) : Bool := c.isAlphanum || c = '_' || c = '-'

def nameEnds (k : Cursor) : Bool :=
  k.gapAt 0 ||
    k.sees fun c => c = '?' || c = ':' || c = ',' || c = ']' || c = '\x7d' || c = '%' || c = '@' || c.toNat = 0x60

/-- A name behind an ampersand or an asterisk. -/
def reference (make : String → Token) : Scanning Unit := do
  saveKey
  allowKey false
  skip 1
  let (name, k) := (← get).cursor.span isNameChar
  if name.isEmpty || !nameEnds k then refuse
  modify fun s => { s with cursor := k }
  emit (make (String.ofList name))

/-- A tag, which ends at a blank, or inside brackets at a comma. -/
def tag : Scanning Unit := do
  saveKey
  allowKey false
  let s ← get
  let (name, k) := s.cursor.span fun c => !(isBlank c || isBreak c || (s.depth ≠ 0 && isFlowMark c))
  if !(k.gapAt 0 || k.sees isFlowMark) then refuse
  set { s with cursor := k }
  emit (.tag (String.ofList name))

def take (r : Reach) (plain : Bool) : Scanning Unit := do
  modify fun s => { s with cursor := r.next, keyAllowed := r.broke }
  emit (.scalar (String.ofList r.text) plain)

def blockScalar (joins : Bool) : Scanning Unit := do
  allowKey true
  dropKey
  let s ← get
  let r ← require (blockText joins s.indent s.cursor)
  take { r with broke := true } false

def quotedScalar (quote : Char) : Scanning Unit := do
  saveKey
  let s ← get
  let r ← require (quotedText quote s.cursor)
  take r false

def plainScalar : Scanning Unit := do
  saveKey
  let s ← get
  take (plainText (s.depth ≠ 0) (s.indent + 1) s.cursor) true

def isMark (c : Char) : Bool :=
  isFlowMark c || c = '#' || c = '&' || c = '*' || c = '!' || c = '|' || c = '>' || c = '\'' || c = '"' || c = '%' ||
    c = '@' || c.toNat = 0x60

def startsPlain (s : Scan) (c : Char) : Bool :=
  if isBlank c || isBreak c || isMark c then false
  else if c = '-' then !s.cursor.gapAt 1
  else if c = '?' || c = ':' then !s.cursor.gapAt 1 && s.depth == 0
  else true

/-- Whether a mark stands alone, as it has to outside brackets. -/
def standsAlone (s : Scan) : Bool := s.depth ≠ 0 || s.cursor.gapAt 1

def next (s : Scan) (c : Char) : Scanning Unit :=
  let lineStart := s.cursor.column == 0
  if c = '%' && lineStart then directive
  else if lineStart && s.cursor.seesMarker then marker (if c = '-' then .documentStart else .documentEnd)
  else if c = '[' then openFlow .flowSequence
  else if c = '\x7b' then openFlow .flowMapping
  else if c = ']' then closeFlow .flowSequenceEnd
  else if c = '\x7d' then closeFlow .flowMappingEnd
  else if c = ',' then flowEntry
  else if c = '-' && s.cursor.gapAt 1 then blockEntry
  else if c = '?' && standsAlone s then explicitKey
  else if c = ':' && standsAlone s then valueMark
  else if c = '*' then reference .alias
  else if c = '&' then reference .anchor
  else if c = '!' then tag
  else if c = '|' && s.depth == 0 then blockScalar false
  else if c = '>' && s.depth == 0 then blockScalar true
  else if c = '\'' || c = '"' then quotedScalar c
  else if startsPlain s c then plainScalar
  else refuse

def all : Nat → Scanning Unit
  | 0 => refuse
  | fuel + 1 => do
    skipGap ((← get).cursor.rest.length + 1)
    dropStale
    unwind (← column)
    let s ← get
    match s.cursor.peek with
    | none =>
      unwind (-1)
      dropKey
    | some c =>
      next s c
      all fuel

end Scanning

/-- The tokens of a text; `none` if it cannot be split into tokens. -/
def tokens? (text : List Char) : Option (List Token) :=
  match (Scanning.all (text.length + 1)).run { cursor := { rest := text } } with
  | (.ok (), s) => some s.tokens
  | (.error (), _) => none

end Document

end BeamOptics
