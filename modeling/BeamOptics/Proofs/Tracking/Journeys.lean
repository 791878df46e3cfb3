import BeamOptics.Tracking.Plant

/-!
# Journeys on record

A recorder that is attached to a tracker is told of every start, with the range that a bunch is about to be tracked
through. Its record is the account of what has been tracked, and it only grows.
-/

namespace BeamOptics

/-- The range that a bunch starts to be tracked through. -/
def Event.started? {α : Type} : Event α → Option Segment
  | .start journey => some journey.range
  | _ => none

namespace Plant

variable {α : Type}

/-- Ranges that tracking has started on, as an observer has recorded them, oldest first. -/
def journeys (p : Plant α) (k : Nat) : List Segment :=
  ((p.records.get? k).getD []).reverse.filterMap Event.started?

/-- Ranges that an observer has recorded since the plant was in an earlier state. -/
def journeysSince (before after : Plant α) (k : Nat) : List Segment :=
  (after.journeys k).drop (before.journeys k).length

theorem journeysSince_of_append {before after : Plant α} {k : Nat} {ranges : List Segment}
    (h : after.journeys k = before.journeys k ++ ranges) : journeysSince before after k = ranges := by
  rw [journeysSince, h, List.drop_left]

theorem journeys_of_records {p p' : Plant α} (h : p'.records = p.records) : p'.journeys = p.journeys := by
  funext k
  rw [journeys, h, journeys]

@[simp] theorem journeys_note (p : Plant α) (n : Note α) : (p.note n).journeys = p.journeys := by
  apply journeys_of_records
  unfold note
  split <;> rfl

theorem journeys_record (p : Plant α) (number : Nat) (event : Event α) (k : Nat) :
    (p.record number event).journeys k =
      p.journeys k ++ if number = k then event.started?.toList else [] := by
  unfold journeys record
  rw [Table.get?_insert]
  by_cases h : number = k
  · subst h
    rw [if_pos rfl, if_pos rfl, Option.getD_some, List.reverse_cons, List.filterMap_append]
    cases hstarted : event.started? <;> simp [hstarted]
  · rw [if_neg h, if_neg h, List.append_nil]

theorem journeys_tell_start (p : Plant α) (tracker : String) (journey : Journey) (o : Observer) (k : Nat) :
    (p.tell tracker (.start journey) o).journeys k =
      p.journeys k ++ if o = .recorder k then [journey.range] else [] := by
  cases o with
  | recorder number =>
    refine (p.journeys_record number (.start journey) k).trans ?_
    simp only [Observer.recorder.injEq]
    rfl
  | logger => simp [tell]
  | failing number => simp [tell]

/-- A start is put on record once for every time that the recorder is attached. -/
theorem journeys_tellAll_start (p : Plant α) (tracker : String) (observers : List Observer) (journey : Journey)
    (k : Nat) :
    (p.tellAll tracker observers (.start journey)).journeys k =
      p.journeys k ++ List.replicate (observers.count (.recorder k)) journey.range := by
  induction observers generalizing p with
  | nil => simp [tellAll]
  | cons o rest ih =>
    refine (ih (tell tracker (.start journey) p o)).trans ?_
    rw [journeys_tell_start, List.append_assoc, List.count_cons]
    congr 1
    by_cases h : o = .recorder k
    · simp [h, List.replicate_succ]
    · simp [h]

theorem journeys_record_of_none (p : Plant α) (number : Nat) {event : Event α} (h : event.started? = none) :
    (p.record number event).journeys = p.journeys := by
  funext k
  simp [journeys_record, h]

theorem journeys_tell_of_none (p : Plant α) (tracker : String) {event : Event α} (h : event.started? = none)
    (o : Observer) : (p.tell tracker event o).journeys = p.journeys := by
  cases o with
  | logger => exact p.journeys_note _
  | recorder number => exact p.journeys_record_of_none number h
  | failing number =>
    cases event with
    | start journey => cases h
    | complete journey momentum => exact p.journeys_record_of_none number h
    | error journey index fault => exact p.journeys_record_of_none number h

theorem journeys_tellAll_of_none (p : Plant α) (tracker : String) (observers : List Observer) {event : Event α}
    (h : event.started? = none) : (p.tellAll tracker observers event).journeys = p.journeys := by
  induction observers generalizing p with
  | nil => rfl
  | cons o rest ih => exact (ih (tell tracker event p o)).trans (p.journeys_tell_of_none tracker h o)

end Plant

end BeamOptics
