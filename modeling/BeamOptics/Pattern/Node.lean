import BeamOptics.Text.Case
import BeamOptics.Text.Word

/-!
# Patterns

Regular patterns for the names of elements and channels: what they are made of, and which characters a class takes.
-/

namespace BeamOptics

namespace Pattern

inductive Category
  | word | digit | blank
  deriving DecidableEq, Repr

inductive ClassItem
  | char (code : Nat)
  | span (first last : Nat)
  | category (kind : Category) (negated : Bool)
  deriving DecidableEq, Repr

/-- How letters are compared, and whether categories know more than ASCII. -/
structure Mode where
  ignoreCase : Bool := false
  multiline : Bool := false
  dotAll : Bool := false
  verbose : Bool := false
  ascii : Bool := false
  deriving DecidableEq, Repr

inductive CharTest
  /-- Any character, or any but a line feed. -/
  | any (newline : Bool)
  | oneOf (negated : Bool) (items : List ClassItem) (mode : Mode)
  deriving DecidableEq, Repr

inductive Anchor
  | start | lineStart | stop | lineStop | lastStop
  | boundary (negated ascii : Bool)
  deriving DecidableEq, Repr

inductive Greed
  | greedy | lazy | possessive
  deriving DecidableEq, Repr

inductive Node where
  | empty
  | fail
  | char (test : CharTest)
  | anchor (anchor : Anchor)
  | seq (first second : Node)
  | alt (left right : Node)
  /-- A group, which captures under its number if it has one. -/
  | group (number : Option Nat) (body : Node)
  | atomic (body : Node)
  | repeated (body : Node) (low : Nat) (high : Option Nat) (greed : Greed)
  | reference (number : Nat) (mode : Mode)
  | choose (number : Nat) (yes no : Node)
  | ahead (positive : Bool) (body : Node)
  | behind (positive : Bool) (width : Nat) (body : Node)
  deriving DecidableEq, Repr

def Category.has (category : Category) (ascii : Bool) (c : Char) : Bool :=
  if ascii && c.toNat ≥ 128 then false
  else
    match category with
    | word => Text.isWord c
    | digit => Text.isDecimalDigit c
    | blank => Text.isBlank c

def lowerCode (ascii : Bool) (n : Nat) : Nat :=
  if ascii && n ≥ 128 then n else Text.toLower (Char.ofNat n)

/-- Code points that count as the same letter when case is ignored. -/
def lettersLike (ascii : Bool) (c : Char) : List Nat :=
  let lower := lowerCode ascii c.toNat
  if ascii then [lower, if c.toNat < 128 then Text.toUpper c else lower]
  else
    let mates := Text.caseMates lower
    mates ++ mates.map fun n => Text.toUpper (Char.ofNat n)

def ClassItem.has (mode : Mode) (c : Char) : ClassItem → Bool
  | char code => code == c.toNat || (mode.ignoreCase && (lettersLike mode.ascii c).contains code)
  | span first last =>
    if mode.ignoreCase then (c.toNat :: lettersLike mode.ascii c).any fun n => first ≤ n && n ≤ last
    else first ≤ c.toNat && c.toNat ≤ last
  | category kind negated => kind.has mode.ascii c != negated

def CharTest.has (c : Char) : CharTest → Bool
  | any newline => newline || c ≠ '\n'
  | oneOf negated items mode => items.any (·.has mode c) != negated

/-- Widths of the texts that a pattern takes: the least, and the greatest if there is one. -/
def Node.widths : Node → Nat × Option Nat
  | empty | anchor _ | ahead .. | behind .. => (0, some 0)
  | fail => (0, some 0)
  | char _ => (1, some 1)
  | seq a b =>
    let (l, h) := a.widths
    let (l', h') := b.widths
    (l + l', h.bind fun n => h'.map (n + ·))
  | alt a b =>
    let (l, h) := a.widths
    let (l', h') := b.widths
    (min l l', h.bind fun n => h'.map (max n))
  | group _ body | atomic body => body.widths
  | repeated body low high _ =>
    let (l, h) := body.widths
    (l * low, if h = some 0 then some 0 else h.bind fun n => high.map (n * ·))
  | reference .. => (0, none)
  | choose _ yes no =>
    let (l, h) := yes.widths
    let (l', h') := no.widths
    (min l l', h.bind fun n => h'.map (max n))

def literalTest (mode : Mode) (c : Char) : CharTest := .oneOf false [.char c.toNat] mode

def literal : List Char → Node
  | [] => .empty
  | c :: rest => .seq (.char (literalTest { } c)) (literal rest)

def anyText : Node := .repeated (.char (.any false)) 0 none .greedy

end Pattern

end BeamOptics
