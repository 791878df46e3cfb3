import BeamOptics.Document.Cursor
import BeamOptics.Text.Quoted

/-!
# Texts of scalars

Plain, quoted and block texts, and how they fold: a single line break between two lines of a text is a blank, each
further one stays a line break.
-/

namespace BeamOptics

namespace Document

structure Reach where
  text : List Char
  next : Cursor
  /-- Whether the text ended with a line break behind it, so that a key may follow. -/
  broke : Bool := false

/-- Line breaks inside a text: the first one folds into a blank if it stands alone. -/
def folded (first more : List Char) : List Char :=
  (if first ≠ ['\n'] then first else if more.isEmpty then [' '] else []) ++ more

/-! ### Plain texts -/

def isFlowMark (c : Char) : Bool := c = ',' || c = '[' || c = ']' || c = '\x7b' || c = '\x7d'

/-- Whether a colon before `rest` ends a plain text. -/
def colonEnds (flow : Bool) : List Char → Bool
  | [] => true
  | c :: _ => isBlank c || isBreak c || (flow && isFlowMark c)

def plainRun (flow : Bool) : List Char → List Char
  | [] => []
  | c :: rest =>
    if isBlank c || isBreak c || (c = ':' && colonEnds flow rest) || (flow && (isFlowMark c || c = '?')) then []
    else c :: plainRun flow rest

/-- Line breaks and spaces before the next line of a plain text; none if a document marker comes first. -/
def plainBreaks : Nat → Cursor → List Char → Option (List Char × Cursor)
  | 0, k, breaks => some (breaks, k)
  | fuel + 1, k, breaks =>
    if k.sees (· = ' ') then plainBreaks fuel k.advance breaks
    else if k.sees isBreak then
      let (b, k) := k.takeBreak
      if k.seesMarker then none else plainBreaks fuel k (breaks ++ b)
    else some (breaks, k)

/-- The gap after a run of plain characters: what it stands for, what follows, whether a line ended. -/
def plainGap (k : Cursor) : Reach :=
  let (spaces, k) := k.span (· = ' ')
  if k.sees isBreak then
    let (first, k) := k.takeBreak
    if k.seesMarker then ⟨[], k, true⟩
    else
      match plainBreaks k.rest.length k [] with
      | none => ⟨[], (k.skipWhile fun c => c = ' ' || isBreak c), true⟩
      | some (more, k) => ⟨folded first more, k, true⟩
  else ⟨spaces, k, false⟩

/-- A plain text whose further lines are indented at least by `indent`. -/
def plainFrom (flow : Bool) (indent : Int) : Nat → Cursor → List Char → List Char → Bool → Reach
  | 0, k, text, _, broke => ⟨text, k, broke⟩
  | fuel + 1, k, text, gap, broke =>
    if k.sees (· = '#') then ⟨text, k, broke⟩
    else
      let run := plainRun flow k.rest
      if run.isEmpty then ⟨text, k, broke⟩
      else
        let text := text ++ gap ++ run
        let after := plainGap (k.skip run.length)
        if after.text.isEmpty || after.next.sees (· = '#') || (!flow && (after.next.column : Int) < indent) then
          ⟨text, after.next, after.broke⟩
        else plainFrom flow indent fuel after.next text after.text after.broke

def plainText (flow : Bool) (indent : Int) (k : Cursor) : Reach := plainFrom flow indent k.rest.length k [] [] false

/-! ### Quoted texts -/

/-- Line breaks inside quotes, with the blanks around them gone; none if a document marker stands there. -/
def quotedBreaks : Nat → Cursor → List Char → Option (List Char × Cursor)
  | 0, k, breaks => some (breaks, k)
  | fuel + 1, k, breaks =>
    if k.seesMarker then none
    else
      let k := k.skipWhile isBlank
      if k.sees isBreak then
        let (b, k) := k.takeBreak
        quotedBreaks fuel k (breaks ++ b)
      else some (breaks, k)

/-- Blanks and line breaks inside quotes; none at the end of the document. -/
def quotedGap (k : Cursor) : Option (List Char × Cursor) :=
  let (blanks, k) := k.span isBlank
  if k.atEnd then none
  else if k.sees isBreak then do
    let (first, k) := k.takeBreak
    let (more, k) ← quotedBreaks k.rest.length k []
    pure (folded first more, k)
  else some (blanks, k)

/-- Letters that stand for one character after a backslash. -/
def escapes : List (Char × Nat) :=
  [('0', 0), ('a', 7), ('b', 8), ('t', 9), ('\t', 9), ('n', 10), ('v', 11), ('f', 12), ('r', 13), ('e', 27),
    (' ', 32), ('"', 34), ('\\', 92), ('/', 47), ('N', 0x85), ('_', 0xA0), ('L', 0x2028), ('P', 0x2029)]

/-- Letters that announce a count of hexadecimal digits after a backslash. -/
def hexEscapes : List (Char × Nat) := [('x', 2), ('u', 4), ('U', 8)]

def hexDigit? (c : Char) : Option Nat :=
  if '0' ≤ c ∧ c ≤ '9' then some (c.toNat - 48)
  else if 'a' ≤ c ∧ c ≤ 'f' then some (c.toNat - 87)
  else if 'A' ≤ c ∧ c ≤ 'F' then some (c.toNat - 55)
  else none

def hexNumber? (digits : List Char) : Option Nat :=
  digits.foldlM (fun n c => (hexDigit? c).map fun d => 16 * n + d) 0

def hexChar? (count : Nat) (k : Cursor) : Option (List Char × Cursor) :=
  let digits := k.rest.take count
  if digits.length < count then none
  else (hexNumber? digits).map fun n => ([Char.ofNat n], k.skip count)

def escape? (k : Cursor) : Option (List Char × Cursor) :=
  match k.peek with
  | none => none
  | some c =>
    match escapes.lookup c, hexEscapes.lookup c with
    | some n, _ => some ([Char.ofNat n], k.advance)
    | none, some count => hexChar? count k.advance
    | none, none =>
      if isBreak c then
        let (_, k) := k.takeBreak
        quotedBreaks k.rest.length k []
      else none

/-- The rest of a text between quotes, with the closing one. -/
def quotedFrom (quote : Char) : Nat → Cursor → List Char → Option Reach
  | 0, _, _ => none
  | fuel + 1, k, text =>
    match k.peek with
    | none => none
    | some c =>
      if c = quote then
        if quote = '\'' && k.advance.sees (· = quote) then quotedFrom quote fuel (k.skip 2) (text ++ [quote])
        else some ⟨text, k.advance, false⟩
      else if c = '\\' && quote = '"' then do
        let (written, k) ← escape? k.advance
        quotedFrom quote fuel k (text ++ written)
      else if isBlank c || isBreak c then do
        let (gap, k) ← quotedGap k
        quotedFrom quote fuel k (text ++ gap)
      else quotedFrom quote fuel k.advance (text ++ [c])

def quotedText (quote : Char) (k : Cursor) : Option Reach := quotedFrom quote (k.rest.length + 1) k.advance []

/-! ### Block texts -/

/-- What becomes of the line breaks at the end of a block. -/
inductive Chomp
  | clip | strip | keep
  deriving DecidableEq, Repr

def chomp? (c : Char) : Option Chomp := if c = '+' then some .keep else if c = '-' then some .strip else none

def width? (c : Char) : Option Nat := if '1' ≤ c ∧ c ≤ '9' then some (c.toNat - 48) else none

/-- The header of a block: how it ends and how far it is indented, in either order. -/
def blockHeader (k : Cursor) : Chomp × Option Nat × Cursor :=
  match k.peek.bind chomp? with
  | some chomp =>
    let k := k.advance
    match k.peek.bind width? with
    | some n => (chomp, some n, k.advance)
    | none => (chomp, none, k)
  | none =>
    match k.peek.bind width? with
    | some n =>
      let k := k.advance
      match k.peek.bind chomp? with
      | some chomp => (chomp, some n, k.advance)
      | none => (.clip, some n, k)
    | none => (.clip, none, k)

/-- The end of a header line: blanks, perhaps a comment, and the line break. -/
def headerEnd (k : Cursor) : Option Cursor :=
  if !k.gapAt 0 || k.sees (· = '\t') then none
  else
    let k := k.skipWhile (· = ' ')
    let k := if k.sees (· = '#') then k.skipWhile fun c => !isBreak c else k
    if k.atLineEnd then some k.takeBreak.2 else none

/-- Leading empty lines, and the widest indentation among them and the first line. -/
def blockIndent : Nat → Cursor → List Char → Nat → List Char × Nat × Cursor
  | 0, k, breaks, widest => (breaks, widest, k)
  | fuel + 1, k, breaks, widest =>
    if k.sees isBreak then
      let (b, k) := k.takeBreak
      blockIndent fuel k (breaks ++ b) widest
    else if k.sees (· = ' ') then blockIndent fuel k.advance breaks (max widest k.advance.column)
    else (breaks, widest, k)

def skipIndent (indent : Nat) : Nat → Cursor → Cursor
  | 0, k => k
  | fuel + 1, k => if k.column < indent && k.sees (· = ' ') then skipIndent indent fuel k.advance else k

def blockBreaks (indent : Nat) : Nat → Cursor → List Char → List Char × Cursor
  | 0, k, breaks => (breaks, k)
  | fuel + 1, k, breaks =>
    let k := skipIndent indent indent k
    if k.sees isBreak then
      let (b, k) := k.takeBreak
      blockBreaks indent fuel k (breaks ++ b)
    else (breaks, k)

/-- The lines of a block. In a folded one, lines that do not begin with a blank join. -/
def blockLines (joins : Bool) (chomp : Chomp) (indent : Nat) :
    Nat → Cursor → List Char → List Char → List Char → List Char × Cursor
  | 0, k, text, _, _ => (text, k)
  | fuel + 1, k, text, lineEnd, breaks =>
    if k.column = indent && !k.atEnd then
      let text := text ++ lineEnd ++ breaks
      let solid := !k.sees isBlank
      let (line, k) := k.span fun c => !isBreak c
      let (lineEnd, k) := k.takeBreak
      let (breaks, k) := blockBreaks indent k.rest.length k []
      let more := k.column = indent && !k.atEnd
      if joins && more && lineEnd = ['\n'] && solid && !k.sees isBlank then
        blockLines joins chomp indent fuel k (text ++ line) (if breaks.isEmpty then [' '] else []) breaks
      else blockLines joins chomp indent fuel k (text ++ line) lineEnd breaks
    else
      (text ++ (if chomp = .strip then [] else lineEnd) ++ (if chomp = .keep then breaks else []), k)

/-- A block text; its mark comes next. The lines are indented deeper than `outer`. -/
def blockText (joins : Bool) (outer : Int) (k : Cursor) : Option Reach :=
  let (chomp, width, k) := blockHeader k.advance
  match headerEnd k with
  | none => none
  | some k =>
    let least := max 1 (outer + 1).toNat
    let (breaks, indent, k) :=
      match width with
      | some n =>
        let (breaks, k) := blockBreaks (least + n - 1) (k.rest.length + 1) k []
        (breaks, least + n - 1, k)
      | none =>
        let (breaks, widest, k) := blockIndent k.rest.length k [] 0
        (breaks, max least widest, k)
    let (text, k) := blockLines joins chomp indent (k.rest.length + 1) k [] [] breaks
    some ⟨text, k, false⟩

end Document

end BeamOptics
