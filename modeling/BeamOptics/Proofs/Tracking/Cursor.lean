import BeamOptics.ClosedOrbit.Search
import BeamOptics.Proofs.Lattice.Growth
import BeamOptics.Proofs.Tracking.Stepping

/-!
# The cursor of a tracker

The cursor of a stepper is the index of the next element. It is within the active range or right behind it: a range is
set without a cursor, stepping starts at the first element, and only the step that has passed an element goes further.
All other work at a station leaves range and cursor alone.
-/

namespace BeamOptics

/-! ### Ranges have elements -/

theorem Model.Spans.elements_ne_nil {α : Type} {m : Model α} {r : Range α} (h : m.Spans r) : r.elements ≠ [] := by
  obtain ⟨s, hlast, rfl⟩ := h
  have hordered := s.ordered
  rw [← List.length_pos_iff, slice_eq_part, length_part hlast]
  omega

theorem SegmentArgument.spans_of_range {α : Type} {m : Model α} {argument : SegmentArgument} {r : Range α}
    (h : argument.range m = .ok r) : m.Spans r := by
  unfold range at h
  split at h
  · exact Model.spans_of_subrange h
  · exact Model.spans_of_beamline h
  · obtain ⟨bounds, -, h⟩ := bind_eq_ok_iff.mp h
    exact spans_of_rangeBetween h

namespace Tracker

variable {α : Type}

/-- The active range has elements, and a cursor is within it or right behind it. -/
structure OnCourse (t : Tracker α) : Prop where
  nonempty : ∀ r, t.range = some r → r.elements ≠ []
  within : ∀ cursor, t.stepper = some cursor →
    ∃ r, t.range = some r ∧ r.first ≤ cursor.index ∧ cursor.index ≤ r.last + 1

/-- What decides whether a tracker is on its course. -/
def position (t : Tracker α) : Option (Range α) × Option Stepper := (t.range, t.stepper)

theorem OnCourse.of_position {t t' : Tracker α} (h : t.OnCourse) (hposition : t'.position = t.position) :
    t'.OnCourse := by
  obtain ⟨hrange, hstepper⟩ := Prod.ext_iff.mp hposition
  simp only [position] at hrange hstepper
  constructor
  · rw [hrange]
    exact h.nonempty
  · rw [hrange, hstepper]
    exact h.within

theorem onCourse_of_none {t : Tracker α} (hrange : ∀ r, t.range = some r → r.elements ≠ [])
    (hstepper : t.stepper = none) : t.OnCourse where
  nonempty := hrange
  within cursor hcursor := by
    rw [hstepper] at hcursor
    cases hcursor

/-- The element under a cursor within the range is the current one. -/
theorem OnCourse.current_eq {t : Tracker α} (h : t.OnCourse) {r : Range α} (hrange : t.range = some r)
    {cursor : Stepper} (hstepper : t.stepper = some cursor) (hlast : cursor.index ≤ r.last) :
    ∃ e, r.elements[cursor.index - r.first]? = some e ∧ t.current = .ok e := by
  obtain ⟨r', hrange', hfirst, -⟩ := h.within cursor hstepper
  obtain rfl := Option.some.inj (hrange'.symm.trans hrange)
  obtain ⟨e, he, hat⟩ := Range.at?_eq_some (h.nonempty r' hrange') hfirst hlast
  refine ⟨e, he, ?_⟩
  simp only [current, hstepper, hrange, hat]

theorem current_of_pastEnd {t : Tracker α} {r : Range α} (hrange : t.range = some r) {cursor : Stepper}
    (hstepper : t.stepper = some cursor) (hlast : r.last < cursor.index) : t.current = .error .stepperPastEnd := by
  simp only [current, hstepper, hrange, Range.at?_eq_none hlast]

theorem current_of_idle {t : Tracker α} (hstepper : t.stepper = none) : t.current = .error .stepperIdle := by
  simp only [current, hstepper]

/-- Only from an element within the range the cursor goes on. -/
theorem OnCourse.advance {t : Tracker α} (h : t.OnCourse) {e : Element α} (he : t.current = .ok e) :
    t.advance.OnCourse where
  nonempty := h.nonempty
  within cursor hcursor := by
    obtain ⟨old, hold, rfl⟩ := Option.map_eq_some_iff.mp hcursor
    obtain ⟨r, hrange, hfirst, hlast⟩ := h.within old hold
    have hinside : old.index ≤ r.last := by
      by_contra hout
      rw [current_of_pastEnd hrange hold (Nat.lt_of_not_le hout)] at he
      cases he
    exact ⟨r, hrange, Nat.le_succ_of_le hfirst, Nat.succ_le_succ hinside⟩

end Tracker

namespace Station

variable {α : Type}

/-! ### Work that leaves the tracker alone -/

theorem keeps_tracker_onPlant {β : Type} (a : Action Fault (Plant α) β) : (onPlant a).Keeps tracker := fun _ => rfl

theorem keeps_tracker_note (n : TrackerNote) : (note n : Action Fault (Station α) Unit).Keeps tracker := fun _ => rfl

theorem keeps_tracker_ride {β : Type} (b : Bunch α) (a : Tracker α → Action Fault (Ride α) β) :
    (ride b a).Keeps tracker := fun _ => rfl

theorem keeps_tracker_rideShared {β : Type} (number : Nat) (a : Tracker α → Action Fault (Ride α) β) :
    (rideShared number a).Keeps tracker :=
  keeps_rideShared_of (fun b => keeps_tracker_ride b a) number fun _ => keeps_tracker_onPlant _

theorem keeps_tracker_trackCopy [Scalar α] : (trackCopy : Action Fault (Station α) (Bunch α)).Keeps tracker :=
  keeps_trackCopy_of fun b => keeps_tracker_ride b _

/-! ### Work that leaves range and cursor alone -/

def position (s : Station α) : Option (Range α) × Option Stepper := s.tracker.position

theorem keeps_position {β : Type} {a : Action Fault (Station α) β} (ha : a.Keeps tracker) : a.Keeps position :=
  ha.of_view fun _ _ => congrArg Tracker.position

theorem keeps_position_onTracker {f : Tracker α → Tracker α} (h : ∀ t, (f t).position = t.position) :
    (onTracker (Action.update f)).Keeps position := fun s => h s.tracker

theorem keeps_position_setInitial (initial : InitialBunch α) : (setInitial initial).Keeps position :=
  keeps_position_onTracker fun _ => rfl

theorem keeps_position_attach (number : Nat) : (attach number : Action Fault (Station α) Unit).Keeps position := by
  refine Action.Keeps.bind ?_ fun _ => (Action.keeps_ask _).bind fun _ => keeps_position (keeps_tracker_note _)
  exact keeps_position_onTracker fun _ => rfl

theorem keeps_position_detach (number : Nat) : (detach number : Action Fault (Station α) Unit).Keeps position := by
  refine Action.keeps_get.bind fun s => ?_
  dsimp only
  split
  · refine Action.Keeps.bind ?_ fun _ => keeps_position (keeps_tracker_note _)
    exact keeps_position_onTracker fun _ => rfl
  · exact keeps_position (keeps_tracker_note _)

theorem keeps_position_attachAll (numbers : List Nat) :
    (attachAll numbers : Action Fault (Station α) Unit).Keeps position := by
  induction numbers with
  | nil => exact Action.keeps_pure _
  | cons number rest ih => exact (keeps_position_attach number).bind fun _ => ih

theorem keeps_position_detachAll (numbers : List Nat) :
    (detachAll numbers : Action Fault (Station α) Unit).Keeps position := by
  induction numbers with
  | nil => exact Action.keeps_pure _
  | cons number rest ih => exact (keeps_position_detach number).bind fun _ => ih

theorem keeps_position_attached {β : Type} {body : Action Fault (Station α) β} (hbody : body.Keeps position)
    (numbers : List Nat) : (attached numbers body).Keeps position := by
  refine (keeps_position_attachAll numbers).bind fun _ => ?_
  refine hbody.outcome.bind fun result => ?_
  exact (keeps_position_detachAll numbers).bind fun _ => Action.keeps_lift _

theorem keeps_position_addObserver (o : Observer) :
    (addObserver o : Action Fault (Station α) Unit).Keeps position := by
  refine Action.Keeps.bind ?_ fun _ => keeps_position (keeps_tracker_note _)
  exact keeps_position_onTracker fun _ => rfl

theorem keeps_position_removeObserver (o : Observer) :
    (removeObserver o : Action Fault (Station α) Unit).Keeps position := by
  refine Action.keeps_get.bind fun s => ?_
  split
  · refine Action.Keeps.bind ?_ fun _ => keeps_position (keeps_tracker_note _)
    exact keeps_position_onTracker fun _ => rfl
  · exact Action.keeps_pure _

/-! ### Work that keeps the tracker on its course -/

def OnCourse (s : Station α) : Prop := s.tracker.OnCourse

theorem upholds_of_keeps {β : Type} {a : Action Fault (Station α) β} (ha : a.Keeps position) : a.Upholds OnCourse :=
  ha.upholds fun _ _ hposition h => h.of_position hposition

theorem upholds_setRange {r : Range α} (hr : r.elements ≠ []) : (setRange r).Upholds OnCourse := by
  refine Action.Upholds.bind ?_ fun _ => upholds_of_keeps (keeps_position (keeps_tracker_note _))
  intro s _
  refine Tracker.onCourse_of_none (fun r' hr' => ?_) rfl
  rwa [← Option.some.inj hr']

theorem upholds_initStepper (number : Nat) : (initStepper number : Action Fault (Station α) Unit).Upholds OnCourse := by
  intro s hs
  unfold initStepper
  rw [Action.run_get_bind]
  cases hrange : s.tracker.range with
  | none =>
    rw [Tracker.requireRange, hrange]
    exact hs
  | some r =>
    rw [Tracker.requireRange, hrange]
    refine ⟨hs.nonempty, fun cursor hcursor => ⟨r, hrange, ?_⟩⟩
    obtain rfl := Option.some.inj hcursor
    have hlast : r.first ≤ r.last := Nat.le_add_right _ _
    exact ⟨Nat.le_refl _, Nat.le_succ_of_le hlast⟩

/-- A step fails and leaves the tracker alone, or it has passed the current element and takes the cursor one further. -/
theorem step_cases [Scalar α] (s : Station α) :
    (∃ fault, (step.run s).1 = .error fault ∧ (step.run s).2.tracker = s.tracker) ∨
      ∃ e, s.tracker.current = .ok e ∧ (step.run s).1 = .ok s.tracker.advance.hasNext ∧
        (step.run s).2.tracker = s.tracker.advance := by
  cases hcurrent : s.tracker.current with
  | error fault =>
    rw [run_step_of_current hcurrent]
    exact .inl ⟨fault, rfl, rfl⟩
  | ok e =>
    cases hbunch : s.tracker.steppedBunch with
    | error fault =>
      rw [step, Action.run_get_bind, Action.run_lift_bind_of_ok hcurrent, Action.run_lift_bind_of_error hbunch]
      exact .inl ⟨fault, rfl, rfl⟩
    | ok number =>
      have htracker := keeps_tracker_rideShared number (fun t => Ride.throughElement t e) s
      rw [run_step_eq hcurrent hbunch]
      rcases hride : (rideShared number fun t => Ride.throughElement t e).run s with ⟨fault | _, s'⟩ <;>
        rw [hride] at htracker
      · rw [Action.run_bind_of_error hride]
        exact .inl ⟨fault, rfl, htracker⟩
      · rw [Action.run_bind_of_ok hride, ← htracker]
        exact .inr ⟨e, rfl, rfl, rfl⟩

theorem upholds_step [Scalar α] : (step : Action Fault (Station α) Bool).Upholds OnCourse := by
  intro s hs
  rcases step_cases s with ⟨fault, -, htracker⟩ | ⟨e, hcurrent, -, htracker⟩
  · rwa [OnCourse, htracker]
  · rw [OnCourse, htracker]
    exact hs.advance hcurrent

end Station

namespace OrbitSearch

variable {α : Type} [Scalar α]

open Station

/-! ### Searches -/

theorem keeps_position_iterate (decompose : Decomposer α) (c : OrbitConfig α) (momentum : α) (budget : Nat)
    (p : Progress α) : (iterate decompose c momentum budget p).Keeps position := by
  have hadvance (p : Progress α) : (advance decompose c momentum p).Keeps position := by
    refine Action.Keeps.bind ?_ fun images => ?_
    · refine Action.Keeps.bind (keeps_position (keeps_tracker_ride _ _)) fun tracked => ?_
      exact (Action.keeps_lift _).bind fun _ => Action.keeps_pure _
    · refine (Action.keeps_lift _).bind fun step => ?_
      exact (keeps_position (keeps_tracker_onPlant _)).bind fun _ => Action.keeps_pure _
  induction budget generalizing p with
  | zero => exact Action.keeps_pure _
  | succ budget ih =>
    rw [iterate]
    split
    · exact (hadvance p).bind ih
    · exact Action.keeps_pure _

omit [Scalar α] in
theorem keeps_position_withProcesses {β : Type} {body : Action Fault (Station α) β} (hbody : body.Keeps position)
    (processes : List (BeamProcess α)) : (withProcesses processes body).Keeps position := by
  refine Action.keeps_get.bind fun s => ?_
  refine (keeps_position (keeps_tracker_onPlant _)).bind fun _ => ?_
  refine (keeps_position_attached hbody _).outcome.bind fun result => ?_
  exact (keeps_position (keeps_tracker_onPlant _)).bind fun _ => Action.keeps_lift _

theorem upholds_find {r : Range α} (hr : r.elements ≠ []) (decompose : Decomposer α) (c : OrbitConfig α) (momentum : α)
    (guess : PhaseVector α) : (find decompose c momentum r guess).Upholds OnCourse := by
  refine (upholds_setRange hr).bind fun _ => upholds_of_keeps ?_
  have hsearch := keeps_position_iterate decompose c momentum (budget c) { orbit := guess, correction := 0 }
  refine (keeps_position_withProcesses hsearch _).bind fun p => ?_
  refine (Action.keeps_lift _).bind fun result => ?_
  exact (keeps_position (keeps_tracker_onPlant _)).bind fun _ => Action.keeps_pure _

end OrbitSearch

end BeamOptics
