import BeamOptics.Action
import BeamOptics.Pattern.Node

/-!
# Reading patterns

The written form of patterns: literals, classes, groups, alternatives, repetition, anchors, references, and modes that
are switched inside the pattern.
-/

namespace BeamOptics

namespace Pattern

/-- What the reader knows: the text to come and the groups so far. -/
structure Reader where
  rest : List Char
  /-- Number of the next group. -/
  groups : Nat := 1
  names : List (String × Nat) := []
  /-- Groups that are not closed yet. -/
  unclosed : List Nat := []
  mode : Mode := { }
  /-- Inside a look-behind, the number of groups before it. -/
  behindLimit : Option Nat := none
  /-- Groups that conditions ask for. -/
  asked : List Nat := []

abbrev Reading := Action Unit Reader

namespace Reading

variable {β : Type}

def refuse : Reading β := throw ()

def peek : Reading (Option Char) := Action.ask fun r => r.rest.head?

def next? : Reading (Option Char) := fun r =>
  match r.rest with
  | c :: rest => (.ok (some c), { r with rest })
  | [] => (.ok none, r)

def next : Reading Char := do
  match ← next? with
  | some c => pure c
  | none => refuse

def skip (c : Char) : Reading Bool := do
  if (← peek) = some c then
    discard next
    pure true
  else pure false

def expect (c : Char) : Reading Unit := do
  unless ← skip c do refuse

def takeWhile (limit : Nat) (p : Char → Bool) : Reading (List Char) := fun r =>
  let taken := (r.rest.take limit).takeWhile p
  (.ok taken, { r with rest := r.rest.drop taken.length })

/-- The text up to a closing character, which is taken too. It must not be empty. -/
def upTo (close : Char) : Reading String := do
  let r ← get
  let name := r.rest.takeWhile (· ≠ close)
  if name.isEmpty || name.length = r.rest.length then refuse
  set { r with rest := r.rest.drop (name.length + 1) }
  pure (String.ofList name)

def numberOf (base : Nat) (digits : List Char) : Nat :=
  digits.foldl (fun n c =>
    let d := if c.isDigit then c.toNat - '0'.toNat else c.toLower.toNat - 'a'.toNat + 10
    base * n + d) 0

def isHex (c : Char) : Bool := c.isDigit || ('a' ≤ c.toLower && c.toLower ≤ 'f')

def isOctal (c : Char) : Bool := '0' ≤ c && c ≤ '7'

def hexCode (count : Nat) : Reading Nat := do
  let digits ← takeWhile count isHex
  if digits.length = count then pure (numberOf 16 digits) else refuse

def namedCode : Char → Option Nat
  | 'a' => some 7
  | 'b' => some 8
  | 'f' => some 12
  | 'n' => some 10
  | 'r' => some 13
  | 't' => some 9
  | 'v' => some 11
  | '\\' => some 92
  | _ => none

def category? : Char → Option (Category × Bool)
  | 'd' => some (.digit, false)
  | 'D' => some (.digit, true)
  | 's' => some (.blank, false)
  | 'S' => some (.blank, true)
  | 'w' => some (.word, false)
  | 'W' => some (.word, true)
  | _ => none

def hexLength? : Char → Option Nat
  | 'x' => some 2
  | 'u' => some 4
  | 'U' => some 8
  | _ => none

def isAsciiLetter (c : Char) : Bool := c.isAlpha

def codePoint (n : Nat) : Reading Nat := if n < 0x110000 then pure n else refuse

def classEscape : Reading ClassItem := do
  let c ← next
  match category? c, namedCode c, hexLength? c with
  | some (category, negated), _, _ => pure (.category category negated)
  | _, some n, _ => pure (.char n)
  | _, _, some count => do
    let n ← hexCode count
    return .char (← codePoint n)
  | _, _, _ =>
    if isOctal c then
      let more ← takeWhile 2 isOctal
      let n := numberOf 8 (c :: more)
      if n > 0o377 then refuse else pure (.char n)
    else if c.isDigit || isAsciiLetter c then refuse
    else pure (.char c.toNat)

def classMember : Reading ClassItem := do
  let c ← next
  if c = '\\' then classEscape else pure (.char c.toNat)

/-- Members of a class up to its bracket. -/
def classItems : Nat → List ClassItem → Reading (List ClassItem)
  | 0, _ => refuse
  | fuel + 1, items => do
    if !items.isEmpty && (← peek) = some ']' then
      discard next
      pure items
    else
      let first ← classMember
      if ← skip '-' then
        if ← skip ']' then pure (items ++ [first, .char '-'.toNat])
        else
          let last ← classMember
          match first, last with
          | .char a, .char b => if b < a then refuse else classItems fuel (items ++ [.span a b])
          | _, _ => refuse
      else classItems fuel (items ++ [first])

def charClass (mode : Mode) : Reading Node := do
  let negated ← skip '^'
  let r ← get
  let items ← classItems (r.rest.length + 1) []
  pure (.char (.oneOf negated items mode))

def literalNode (mode : Mode) (code : Nat) : Node := .char (.oneOf false [.char code] mode)

/-- A reference to a group that is closed, and lies before a look-behind around it. -/
def reference (mode : Mode) (n : Nat) : Reading Node := do
  let r ← get
  if r.groups ≤ n || r.unclosed.contains n then refuse
  if r.behindLimit.any (· ≤ n) then refuse
  pure (.reference n mode)

/-- A number after a backslash: an octal code of three digits, or a reference. -/
def numbered (mode : Mode) (c : Char) : Reading Node := do
  match ← peek with
  | some d =>
    if d.isDigit then
      discard next
      let third ← peek
      match third with
      | some e =>
        if isOctal c && isOctal d && isOctal e then
          discard next
          let n := numberOf 8 [c, d, e]
          if n > 0o377 then refuse else pure (literalNode mode n)
        else reference mode (numberOf 10 [c, d])
      | none => reference mode (numberOf 10 [c, d])
    else reference mode (numberOf 10 [c])
  | none => reference mode (numberOf 10 [c])

def anchorEscape? (mode : Mode) : Char → Option Anchor
  | 'A' => some .start
  | 'Z' => some .stop
  | 'b' => some (.boundary false mode.ascii)
  | 'B' => some (.boundary true mode.ascii)
  | _ => none

def escape (mode : Mode) : Reading Node := do
  let c ← next
  match anchorEscape? mode c, category? c, namedCode c, hexLength? c with
  | some a, _, _, _ => pure (.anchor a)
  | _, some (category, negated), _, _ => pure (.char (.oneOf false [.category category negated] mode))
  | _, _, some n, _ => pure (literalNode mode n)
  | _, _, _, some count => do
    let n ← hexCode count
    return literalNode mode (← codePoint n)
  | _, _, _, _ =>
    if c = '0' then
      let more ← takeWhile 2 isOctal
      pure (literalNode mode (numberOf 8 more))
    else if c.isDigit then numbered mode c
    else if isAsciiLetter c then refuse
    else pure (literalNode mode c.toNat)

/-- Counts of a repetition in braces, or nothing if the braces are plain text. -/
def counts : Reading (Option (Nat × Option Nat)) := do
  let start ← get
  if (← peek) = some '\x7d' then pure none
  else
    let low ← takeWhile start.rest.length Char.isDigit
    let comma ← skip ','
    let high ← if comma then takeWhile start.rest.length Char.isDigit else pure low
    if ← skip '\x7d' then
      let least := numberOf 10 low
      let most := if high.isEmpty then none else some (numberOf 10 high)
      if most.any (· < least) then refuse else pure (some (least, most))
    else
      set start
      pure none

def repeatLast (items : List Node) (low : Nat) (high : Option Nat) : Reading (List Node) := do
  match items with
  | [] => refuse
  | .anchor _ :: _ => refuse
  | .repeated .. :: _ => refuse
  | item :: before => do
    if ← skip '?' then pure (.repeated item low high .lazy :: before)
    else if ← skip '+' then pure (.repeated item low high .possessive :: before)
    else pure (.repeated item low high .greedy :: before)

def isNameStart (c : Char) : Bool := c = '_' || (Text.isWord c && !Text.isDecimalDigit c)

def isName (name : String) : Bool :=
  match name.toList with
  | [] => false
  | c :: rest => isNameStart c && rest.all Text.isWord

def openGroup (name : Option String) : Reading Nat := do
  let r ← get
  match name with
  | some name =>
    if !isName name || (r.names.lookup name).isSome then refuse
    set { r with groups := r.groups + 1, unclosed := r.groups :: r.unclosed, names := (name, r.groups) :: r.names }
  | none => set { r with groups := r.groups + 1, unclosed := r.groups :: r.unclosed }
  pure r.groups

def closeGroup (n : Nat) : Reading Unit := modify fun r => { r with unclosed := r.unclosed.filter (· ≠ n) }

def namedReference (mode : Mode) : Reading Node := do
  let name ← upTo ')'
  let r ← get
  match r.names.lookup name with
  | some n => reference mode n
  | none => refuse

def modeLetters : List Char := ['i', 'm', 's', 'x', 'a', 'u', 't']

def switchOn (m : Mode) : Char → Mode
  | 'i' => { m with ignoreCase := true }
  | 'm' => { m with multiline := true }
  | 's' => { m with dotAll := true }
  | 'x' => { m with verbose := true }
  | 'a' => { m with ascii := true }
  | 'u' => { m with ascii := false }
  | _ => m

def switchOff (m : Mode) : Char → Mode
  | 'i' => { m with ignoreCase := false }
  | 'm' => { m with multiline := false }
  | 's' => { m with dotAll := false }
  | 'x' => { m with verbose := false }
  | _ => m

def letters : Nat → Reading (List Char × Char)
  | 0 => refuse
  | fuel + 1 => do
    let c ← next
    if modeLetters.contains c then
      let (more, stop) ← letters fuel
      pure (c :: more, stop)
    else pure ([], c)

/-- Letters to switch on and off, and whether they hold for the whole pattern. -/
structure Switches where
  on : List Char
  off : List Char
  whole : Bool

def switches (first : Char) : Reading Switches := do
  let r ← get
  let (on, stop) ←
    if first = '-' then pure ([], '-')
    else do
      let (more, stop) ← letters (r.rest.length + 1)
      pure (first :: more, stop)
  if on.contains 'a' && on.contains 'u' then refuse
  match stop with
  | ')' => pure ⟨on, [], true⟩
  | ':' => if on.contains 't' then refuse else pure ⟨on, [], false⟩
  | '-' => do
    let (off, stop) ← letters (r.rest.length + 1)
    if off.isEmpty || stop ≠ ':' || off.any (fun c => c = 'a' || c = 'u' || c = 't') || on.contains 't' ||
        on.any off.contains then refuse
    pure ⟨on, off, false⟩
  | _ => refuse

def isPatternBlank (c : Char) : Bool := c = ' ' || (9 ≤ c.toNat && c.toNat ≤ 13)

def sequence (items : List Node) : Node := items.foldl (fun after item => .seq item after) .empty

/-- Group that a condition asks for, by name or by number. -/
def conditionGroup : Reading Nat := do
  let name ← upTo ')'
  let r ← get
  let n ←
    match r.names.lookup name with
    | some n => pure n
    | none =>
      if name.toList.all Char.isDigit && numberOf 10 name.toList ≠ 0 then do
        let n := numberOf 10 name.toList
        modify fun r => { r with asked := n :: r.asked }
        pure n
      else refuse
  if r.behindLimit.any (· ≤ n) then refuse
  pure n

/-- What an extended parenthesis stands for: a node, nothing at all, or a change of the mode. -/
inductive Extension where
  | node (node : Node)
  | nothing
  | mode (mode : Mode)

mutual

def alternatives : Nat → Mode → Bool → Reading Node
  | 0, _, _ => refuse
  | fuel + 1, mode, top => do
    let first ← items fuel mode top []
    moreAlternatives fuel mode top first

def moreAlternatives : Nat → Mode → Bool → Node → Reading Node
  | 0, _, _, _ => refuse
  | fuel + 1, mode, top, left => do
    if ← skip '|' then
      let whole ← Action.ask Reader.mode
      let right ← items fuel (if top then whole else mode) false []
      let rest ← moreAlternatives fuel mode top right
      pure (.alt left rest)
    else pure left

/-- Items of one alternative; those read so far are given backwards. -/
def items : Nat → Mode → Bool → List Node → Reading Node
  | 0, _, _, _ => refuse
  | fuel + 1, mode, top, done => do
    match ← peek with
    | none => pure (sequence done)
    | some c =>
      if c = '|' || c = ')' then pure (sequence done)
      else
        discard next
        if mode.verbose && isPatternBlank c then items fuel mode top done
        else if mode.verbose && c = '#' then
          let r ← get
          discard (takeWhile r.rest.length (· ≠ '\n'))
          items fuel mode top done
        else if c = '\\' then
          let node ← escape mode
          items fuel mode top (node :: done)
        else if c = '[' then
          let node ← charClass mode
          items fuel mode top (node :: done)
        else if c = '.' then items fuel mode top (.char (.any mode.dotAll) :: done)
        else if c = '^' then items fuel mode top (.anchor (if mode.multiline then .lineStart else .start) :: done)
        else if c = '$' then items fuel mode top (.anchor (if mode.multiline then .lineStop else .lastStop) :: done)
        else if c = '?' then
          let done ← repeatLast done 0 (some 1)
          items fuel mode top done
        else if c = '*' then
          let done ← repeatLast done 0 none
          items fuel mode top done
        else if c = '+' then
          let done ← repeatLast done 1 none
          items fuel mode top done
        else if c = '\x7b' then
          match ← counts with
          | some (low, high) =>
            let done ← repeatLast done low high
            items fuel mode top done
          | none => items fuel mode top (literalNode mode c.toNat :: done)
        else if c = '(' then
          if ← skip '?' then
            match ← extension fuel mode (top && done.isEmpty) with
            | .node node => items fuel mode top (node :: done)
            | .nothing => items fuel mode top done
            | .mode mode => items fuel mode top done
          else
            let node ← group fuel mode none
            items fuel mode top (node :: done)
        else items fuel mode top (literalNode mode c.toNat :: done)

def group : Nat → Mode → Option String → Reading Node
  | 0, _, _ => refuse
  | fuel + 1, mode, name => do
    let n ← openGroup name
    let body ← alternatives fuel mode false
    expect ')'
    closeGroup n
    pure (.group (some n) body)

def extension : Nat → Mode → Bool → Reading Extension
  | 0, _, _ => refuse
  | fuel + 1, mode, atStart => do
    let c ← next
    match c with
    | 'P' => do
      let d ← next
      match d with
      | '<' => do
        let name ← upTo '>'
        return .node (← group fuel mode (some name))
      | '=' => return .node (← namedReference mode)
      | _ => refuse
    | ':' => do
      let body ← alternatives fuel mode false
      expect ')'
      pure (.node (.group none body))
    | '>' => do
      let body ← alternatives fuel mode false
      expect ')'
      pure (.node (.atomic body))
    | '#' => do
      let r ← get
      discard (takeWhile r.rest.length (· ≠ ')'))
      expect ')'
      pure .nothing
    | '=' => do
      let body ← alternatives fuel mode false
      expect ')'
      pure (.node (.ahead true body))
    | '!' => do
      let body ← alternatives fuel mode false
      expect ')'
      pure (.node (.ahead false body))
    | '<' => do
      let d ← next
      unless d = '=' || d = '!' do refuse
      let outer ← Action.ask Reader.behindLimit
      if outer.isNone then modify fun r => { r with behindLimit := some r.groups }
      let body ← alternatives fuel mode false
      if outer.isNone then modify fun r => { r with behindLimit := none }
      expect ')'
      match body.widths with
      | (low, some high) => if low = high then pure (.node (.behind (d = '=') low body)) else refuse
      | _ => refuse
    | '(' => do
      let n ← conditionGroup
      let yes ← items fuel mode false []
      let no ←
        if ← skip '|' then do
          let no ← items fuel mode false []
          if (← peek) = some '|' then refuse
          pure no
        else pure .empty
      expect ')'
      pure (.node (.choose n yes no))
    | c => do
      unless modeLetters.contains c || c = '-' do refuse
      let s ← switches c
      let changed := s.off.foldl switchOff (s.on.foldl switchOn mode)
      if s.whole then
        unless atStart do refuse
        modify fun r => { r with mode := changed }
        pure (.mode changed)
      else
        let body ← alternatives fuel changed false
        expect ')'
        pure (.node (.group none body))

end

end Reading

/-- Reads a pattern; `none` if it is not well formed. -/
def read? (text : String) : Option Node :=
  let fuel := 4 * text.length + 4
  match (Reading.alternatives fuel { } true).run { rest := text.toList } with
  | (.ok node, r) => if r.rest.isEmpty && r.asked.all (· < r.groups) then some node else none
  | (.error (), _) => none

end Pattern

end BeamOptics
