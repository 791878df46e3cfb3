import BeamOptics.Beam.Stack
import BeamOptics.Lattice.Signals
import BeamOptics.Table
import BeamOptics.Tracking.BeamProcess
import BeamOptics.Tracking.Record

/-!
# The plant

Everything that trackers share: live signals, bunches and processes under numbers, what observers have recorded,
and the log.
-/

namespace BeamOptics

structure Plant (α : Type) where
  signals : Signals α := { }
  processes : Table Nat (BeamProcess α) := .empty
  bunches : Table Nat (Load α) := .empty
  /-- Recorded events by observer, newest first. -/
  records : Table Nat (List (Event α)) := .empty
  /-- Log level by tracker name; the tracker made last under a name sets it. -/
  levels : Table String LogLevel := .empty
  /-- The log, newest note first. -/
  notes : List (Note α) := []

/-- A callback on the events of a tracker. The failing observer fails at every start and records all else. -/
inductive Observer
  | logger
  | recorder (number : Nat)
  | failing (number : Nat)
  deriving DecidableEq, Repr

def Observer.name : Observer → String
  | logger => "LoggingMonitor"
  | recorder _ => "RecordingMonitor"
  | failing _ => "BrokenMonitor"

namespace Plant

variable {α : Type}

/-- Trackers keep only notes at or above the level of their name; all others keep everything. -/
def keeps (p : Plant α) : Note α → Bool
  | .tracker name note => ((p.levels.get? name).getD .debug).rank ≤ note.level.rank
  | _ => true

def note (p : Plant α) (n : Note α) : Plant α := if p.keeps n then { p with notes := n :: p.notes } else p

def noteAll (p : Plant α) (notes : List (Note α)) : Plant α := notes.foldl note p

def record (p : Plant α) (number : Nat) (event : Event α) : Plant α :=
  { p with records := p.records.insert number (event :: (p.records.get? number).getD []) }

def tell (tracker : String) (event : Event α) (p : Plant α) : Observer → Plant α
  | .logger => p.note event.note
  | .recorder number => p.record number event
  | .failing number =>
    match event with
    | .start _ => p.note (.tracker tracker (.observerFailed (Observer.failing number).name "monitor failure"))
    | _ => p.record number event

def tellAll (p : Plant α) (tracker : String) (observers : List Observer) (event : Event α) : Plant α :=
  observers.foldl (tell tracker event) p

def processLabel (p : Plant α) (number : Nat) : String :=
  match p.processes.get? number with
  | some process => process.label
  | none => ""

def processesOf (p : Plant α) (numbers : List Nat) : List (BeamProcess α) := numbers.filterMap p.processes.get?

@[simp] theorem signals_note (p : Plant α) (n : Note α) : (p.note n).signals = p.signals := by
  unfold note
  split <;> rfl

@[simp] theorem processes_note (p : Plant α) (n : Note α) : (p.note n).processes = p.processes := by
  unfold note
  split <;> rfl

@[simp] theorem bunches_note (p : Plant α) (n : Note α) : (p.note n).bunches = p.bunches := by
  unfold note
  split <;> rfl

end Plant

end BeamOptics
