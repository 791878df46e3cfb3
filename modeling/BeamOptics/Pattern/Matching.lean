import BeamOptics.Pattern.Node

/-!
# Matching

All ways in which a pattern takes text from a place, the preferred ones first. A pattern matches a whole text when one
of them leaves nothing. Repetition beyond the least count stops where it takes no text, so what is left bounds it.
-/

namespace BeamOptics

namespace Pattern

structure Place where
  /-- The text before the place, backwards. -/
  before : List Char
  rest : List Char
  captures : List (Nat × List Char) := []
  deriving DecidableEq, Repr

namespace Place

def ofText (text : List Char) : Place := ⟨[], text, []⟩

def take? (p : Place) (test : Char → Bool) : Option Place :=
  match p.rest with
  | c :: rest => if test c then some { p with before := c :: p.before, rest } else none
  | [] => none

/-- Takes a fixed text, characters compared by `same`. -/
def takeText? (same : Char → Char → Bool) : List Char → Place → Option Place
  | [], p => some p
  | c :: cs, p => (p.take? (same c)).bind (takeText? same cs)

def back? (p : Place) : Nat → Option Place
  | 0 => some p
  | n + 1 =>
    match p.before with
    | c :: before => back? { p with before, rest := c :: p.rest } n
    | [] => none

def capture (number : Nat) (start p : Place) : Place :=
  let text := start.rest.take (start.rest.length - p.rest.length)
  { p with captures := (number, text) :: p.captures.filter fun entry => entry.1 ≠ number }

end Place

def Anchor.holds (p : Place) : Anchor → Bool
  | start => p.before.isEmpty
  | lineStart => p.before.isEmpty || p.before.head? == some '\n'
  | stop => p.rest.isEmpty
  | lineStop => p.rest.isEmpty || p.rest.head? == some '\n'
  | lastStop => p.rest.isEmpty || p.rest == ['\n']
  | boundary negated ascii =>
    let isWord := fun (c : Option Char) => c.elim false (Category.word.has ascii)
    !(p.before.isEmpty && p.rest.isEmpty) && (isWord p.before.head? != isWord p.rest.head?) != negated

/-- Repeats what `body` takes: `low` times at least, `high` times at most. -/
def iterate (body : Place → List Place) (greed : Greed) : Nat → Nat → Option Nat → Place → List Place
  | 0, _, _, p => [p]
  | fuel + 1, low + 1, high, p => (body p).eraseDups.flatMap (iterate body greed fuel low (high.map (· - 1)))
  | fuel + 1, 0, high, p =>
    let longer :=
      if high = some 0 then []
      else ((body p).eraseDups.filter fun q => q.rest.length < p.rest.length).flatMap
        (iterate body greed fuel 0 (high.map (· - 1)))
    if greed = .lazy then p :: longer else longer ++ [p]

def sameLetter (mode : Mode) (a b : Char) : Bool :=
  if mode.ignoreCase then (literalTest mode a).has b else a == b

namespace Node

/-- Every place to which a pattern leads from a place, the preferred first. -/
def run : Node → Place → List Place
  | empty, p => [p]
  | fail, _ => []
  | char test, p => (p.take? test.has).toList
  | anchor a, p => if a.holds p then [p] else []
  | seq a b, p => (a.run p).flatMap b.run
  | alt a b, p => a.run p ++ b.run p
  | group none body, p => body.run p
  | group (some n) body, p => (body.run p).map (Place.capture n p)
  | atomic body, p => (body.run p).take 1
  | repeated body low high greed, p =>
    let all := iterate body.run greed (p.rest.length + low + 1) low high p
    if greed = .possessive then all.take 1 else all
  | reference n mode, p =>
    match p.captures.lookup n with
    | some text => (Place.takeText? (sameLetter mode) text p).toList
    | none => []
  | choose n yes no, p => if (p.captures.lookup n).isSome then yes.run p else no.run p
  | ahead positive body, p =>
    match body.run p with
    | [] => if positive then [] else [p]
    | q :: _ => if positive then [{ p with captures := q.captures }] else []
  | behind positive width body, p =>
    match (p.back? width).map body.run with
    | some (q :: _) => if positive then [{ p with captures := q.captures }] else []
    | _ => if positive then [] else [p]

def fullMatch (node : Node) (text : String) : Bool :=
  (node.run (.ofText text.toList)).any fun p => p.rest.isEmpty

end Node

end Pattern

end BeamOptics
