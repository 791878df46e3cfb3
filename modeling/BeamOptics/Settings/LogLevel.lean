/-!
# Log levels
-/

namespace BeamOptics

inductive LogLevel
  | debug | info | warning | error | critical
  deriving DecidableEq, Repr

namespace LogLevel

def all : List LogLevel := [debug, info, warning, error, critical]

def name : LogLevel → String
  | debug => "DEBUG"
  | info => "INFO"
  | warning => "WARNING"
  | error => "ERROR"
  | critical => "CRITICAL"

def rank : LogLevel → Nat
  | debug => 10
  | info => 20
  | warning => 30
  | error => 40
  | critical => 50

/-- Letters of level names in either case; two more letters have a capital among them. -/
def capital (c : Char) : Char :=
  if c.toNat = 0x131 then 'I' else if c.toNat = 0x17F then 'S' else c.toUpper

def ofText? (text : String) : Option LogLevel :=
  let word := String.ofList (text.toList.map capital)
  all.find? (·.name == word)

end LogLevel

end BeamOptics
