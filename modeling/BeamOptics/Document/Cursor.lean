/-!
# Places in a document

What is left of a text, with the line and column of its first character.
-/

namespace BeamOptics

namespace Document

def isBreak (c : Char) : Bool :=
  c = '\n' || c = '\r' || c.toNat = 0x85 || c.toNat = 0x2028 || c.toNat = 0x2029

/-- What a line break counts as: line and paragraph separators stay, all others are line feeds. -/
def breakChar (c : Char) : Char := if c.toNat = 0x2028 || c.toNat = 0x2029 then c else '\n'

def isBlank (c : Char) : Bool := c = ' ' || c = '\t'

structure Cursor where
  rest : List Char
  line : Nat := 0
  column : Nat := 0

namespace Cursor

def peek (k : Cursor) : Option Char := k.rest.head?

def atEnd (k : Cursor) : Bool := k.rest.isEmpty

def sees (k : Cursor) (p : Char → Bool) : Bool := k.peek.any p

def gapAt (k : Cursor) (n : Nat) : Bool :=
  match k.rest[n]? with
  | some c => isBlank c || isBreak c
  | none => true

def atLineEnd (k : Cursor) : Bool := k.atEnd || k.sees isBreak

def advance (k : Cursor) : Cursor :=
  match k.rest with
  | [] => k
  | c :: rest => if isBreak c then ⟨rest, k.line + 1, 0⟩ else ⟨rest, k.line, k.column + 1⟩

def skip (k : Cursor) : Nat → Cursor
  | 0 => k
  | n + 1 => k.advance.skip n

def span (k : Cursor) (p : Char → Bool) : List Char × Cursor :=
  let taken := k.rest.takeWhile p
  (taken, k.skip taken.length)

def skipWhile (k : Cursor) (p : Char → Bool) : Cursor := (k.span p).2

def takeBreak (k : Cursor) : List Char × Cursor :=
  match k.rest with
  | c :: _ => if isBreak c then ([breakChar c], k.advance) else ([], k)
  | [] => ([], k)

/-- Three equal marks that stand alone, as they begin or end a document. -/
def seesMarker (k : Cursor) : Bool :=
  match k.rest with
  | a :: b :: c :: _ => (a = '-' || a = '.') && a = b && b = c && k.gapAt 3
  | _ => false

end Cursor

end Document

end BeamOptics
