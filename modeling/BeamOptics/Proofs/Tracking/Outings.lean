import BeamOptics.Proofs.Tracking.Journeys
import BeamOptics.Proofs.Tracking.Stepping

/-!
# Outings

One tracking of a bunch through a range is an outing. Observers are told of its start, and then of its completion or of
the error that ends it, and of nothing else: what is on record is an account of outings, one behind the other.
-/

namespace BeamOptics

/-- One tracking of a bunch, with the momentum that it ended with, or the index and the fault that ended it. -/
structure Outing (α : Type) where
  journey : Journey
  result : Except (Nat × Fault) α

/-- Whether an observer puts an event on the record under a number. One that fails at starts is told of them, but has
them in the log only. -/
def Observer.records {α : Type} (k : Nat) (event : Event α) : Observer → Bool
  | .logger => false
  | .recorder number => number == k
  | .failing number => number == k && event.started?.isNone

namespace Outing

variable {α : Type}

def range (o : Outing α) : Segment := o.journey.range

def start (o : Outing α) : Event α := .start o.journey

/-- The event that ends the outing. -/
def stop (o : Outing α) : Event α :=
  match o.result with
  | .ok momentum => .complete o.journey momentum
  | .error (index, fault) => .error o.journey index fault

def Completed (o : Outing α) : Prop := ∃ momentum, o.result = .ok momentum

/-- What some observers put on the record under a number: the start, once for each of them, and then the end. -/
def account (observers : List Observer) (k : Nat) (o : Outing α) : List (Event α) :=
  List.replicate (observers.countP (Observer.records k o.start)) o.start ++
    List.replicate (observers.countP (Observer.records k o.stop)) o.stop

theorem account_of_recorders {observers : List Observer} {k : Nat} (h : .failing k ∉ observers) (o : Outing α) :
    o.account observers k =
      List.replicate (observers.count (.recorder k)) o.start ++
        List.replicate (observers.count (.recorder k)) o.stop := by
  have hcount (event : Event α) : observers.countP (Observer.records k event) = observers.count (.recorder k) := by
    apply List.countP_congr
    intro observer hobserver
    cases observer with
    | logger => simp [Observer.records]
    | recorder number => simp [Observer.records]
    | failing number =>
      have hne : number ≠ k := fun heq => h (heq ▸ hobserver)
      simp [Observer.records, hne]
  rw [account, hcount, hcount]

end Outing

namespace Plant

variable {α : Type}

/-- What observers have put on the record under a number, oldest first. -/
def received (p : Plant α) (k : Nat) : List (Event α) := ((p.records.get? k).getD []).reverse

theorem received_of_records {p p' : Plant α} (h : p'.records = p.records) : p'.received = p.received := by
  funext k
  rw [received, h, received]

theorem records_of_unlogged {p p' : Plant α} (h : p'.unlogged = p.unlogged) : p'.records = p.records :=
  (congrArg records h :)

theorem received_record (p : Plant α) (number : Nat) (event : Event α) (k : Nat) :
    (p.record number event).received k = p.received k ++ if number = k then [event] else [] := by
  unfold received record
  rw [Table.get?_insert]
  by_cases h : number = k
  · subst h
    simp
  · simp [h]

theorem received_tell (p : Plant α) (tracker : String) (event : Event α) (observer : Observer) (k : Nat) :
    (p.tell tracker event observer).received k =
      p.received k ++ if observer.records k event = true then [event] else [] := by
  have hnote (n : Note α) : (p.note n).received = p.received :=
    received_of_records (records_of_unlogged (p.unlogged_note n))
  cases observer with
  | logger => simp [tell, hnote, Observer.records]
  | recorder number => simp [tell, received_record, Observer.records]
  | failing number => cases event <;> simp [tell, hnote, received_record, Observer.records, Event.started?]

/-- Every observer is told of the event once. -/
theorem received_tellAll (p : Plant α) (tracker : String) (observers : List Observer) (event : Event α) (k : Nat) :
    (p.tellAll tracker observers event).received k =
      p.received k ++ List.replicate (observers.countP (Observer.records k event)) event := by
  induction observers generalizing p with
  | nil => simp [tellAll]
  | cons observer rest ih =>
    refine (ih (tell tracker event p observer)).trans ?_
    rw [received_tell, List.append_assoc, List.countP_cons]
    by_cases h : observer.records k event = true
    · simp [h, List.replicate_succ]
    · simp [h]

/-- The plant after an outing: all observers were told of the start, then the bunch went past the monitors, what the
fault calls for was noted, and all observers were told of the end. -/
def told (p : Plant α) (tracker : String) (observers : List Observer) (o : Outing α) (signals : Signals α)
    (notes : List (Note α)) : Plant α :=
  (noteAll { p.tellAll tracker observers o.start with signals } notes).tellAll tracker observers o.stop

theorem received_told (p : Plant α) (tracker : String) (observers : List Observer) (o : Outing α)
    (signals : Signals α) (notes : List (Note α)) (k : Nat) :
    (p.told tracker observers o signals notes).received k = p.received k ++ o.account observers k := by
  have hmiddle : (noteAll { p.tellAll tracker observers o.start with signals } notes).received =
      (p.tellAll tracker observers o.start).received := by
    refine received_of_records ?_
    rw [records_of_unlogged (unlogged_noteAll _ notes)]
  rw [told, received_tellAll, hmiddle, received_tellAll, List.append_assoc, Outing.account]

end Plant

namespace Ride

variable {α : Type} [Scalar α]

/-- How an outing ends that has gone through all of a range, or as far as an element that could not be passed. The
elements before that one have been passed completely and in order, and it is the last that was come to. -/
inductive Bracketed (t : Tracker α) (r : Range α) (b : Bunch α) (plant : Plant α) : Except Fault Unit × Ride α → Prop
  | complete {pass : Pass α}
    (h : (Pass.throughLine (plant.processesOf t.processes) r.first r.elements).run ⟨b, plant.signals⟩ =
      (.ok (), pass)) :
    Bracketed t r b plant (.ok (), ⟨pass.bunch, plant.told t.name t.observers
      ⟨⟨t.name, r.span, b.size⟩, .ok pass.bunch.momentum⟩ pass.signals []⟩)
  | error {front back : List (Element α)} {e : Element α} {fault : Fault} {pass₁ pass : Pass α}
    (helements : r.elements = front ++ e :: back)
    (hfront : (Pass.throughLine (plant.processesOf t.processes) r.first front).run ⟨b, plant.signals⟩ =
      (.ok (), pass₁))
    (he : (Pass.throughElement (plant.processesOf t.processes) e).run pass₁ = (.error fault, pass)) :
    Bracketed t r b plant
      (.error (if fault.isSimulation then fault else .failedAt (r.first + front.length) fault),
        ⟨pass.bunch, plant.told t.name t.observers
          ⟨⟨t.name, r.span, b.size⟩, .error (r.first + front.length, fault)⟩ pass.signals fault.notes⟩)

variable {t : Tracker α} {b : Bunch α} {plant : Plant α}

/-- What ended so was one outing through the range, completed if it was a success. -/
theorem Bracketed.exists_outing {r : Range α} {result : Except Fault Unit} {ride : Ride α}
    (h : Bracketed t r b plant (result, ride)) :
    ∃ o : Outing α, o.range = r.span ∧ (result = .ok () → o.Completed) ∧
      ∀ k, ride.plant.received k = plant.received k ++ o.account t.observers k := by
  cases h with
  | @complete pass h =>
    exact ⟨_, rfl, fun _ => ⟨pass.bunch.momentum, rfl⟩, Plant.received_told plant t.name t.observers _ _ _⟩
  | @error front back e fault pass₁ pass helements hfront he =>
    exact ⟨_, rfl, nofun, Plant.received_told plant t.name t.observers _ _ _⟩

theorem run_track_of_idle (h : t.range = none) : (track t).run ⟨b, plant⟩ = (.error (.noRange t.name), ⟨b, plant⟩) := by
  have hrequire : t.requireRange = .error (.noRange t.name) := by rw [Tracker.requireRange, h]
  rw [track, Action.run_lift_bind_of_error hrequire]

theorem bracketed_track {r : Range α} (hrange : t.range = some r) (b : Bunch α) (plant : Plant α) :
    Bracketed t r b plant ((track t).run ⟨b, plant⟩) := by
  have happart := plant.apart_tellAll [] t.name t.observers (.start ⟨t.name, r.span, b.size⟩)
  have hsignals := plant.signals_tellAll t.name t.observers (.start ⟨t.name, r.span, b.size⟩)
  rw [track, Action.run_lift_bind_of_ok (Tracker.requireRange_of_range hrange),
    Action.run_bind_of_ok (Action.run_ask _ _), tellAll, Action.run_bind_of_ok (Action.run_update _ _),
    Action.run_bind_of_ok (Action.run_ask _ _), Action.run_bind_of_ok (Action.run_outcome _ _)]
  dsimp only
  rw [Plant.processesOf_of_fixtures (Plant.fixtures_of_apart happart)]
  simp only [onPass, Action.run_focus, hsignals]
  rcases hrun : (Pass.throughLine (plant.processesOf t.processes) r.first r.elements).run ⟨b, plant.signals⟩ with
    ⟨⟨index, fault⟩ | _, pass⟩
  · obtain ⟨front, e, back, pass₁, helements, rfl, hfront, he⟩ := Pass.exists_of_throughLine_error hrun
    exact .error helements hfront he
  · exact .complete hrun

end Ride

end BeamOptics
