import BeamOptics.Accelerator.Basic
import BeamOptics.Proofs.Lattice.Growth
import BeamOptics.Proofs.Tracking.Frame

/-!
# What work on an accelerator leaves alone

Tracking of an accelerator's bunches goes on at its station; the cache is not touched by it. What happens to the
accelerator itself is no concern of the station.
-/

namespace BeamOptics

namespace Rig

variable {α : Type}

def station (rig : Rig α) : Station α := ⟨rig.tracker, rig.plant⟩

def regime (rig : Rig α) : Table Nat α × List (BeamProcess α) := Station.regime ⟨rig.tracker, rig.plant⟩

/-! ### Parts of a rig -/

variable {τ : Type} {view : Station α → τ}

theorem keeps_accelerator_onStation {β : Type} (a : Action Fault (Station α) β) :
    (onStation a).Keeps Rig.accelerator := fun _ => rfl

theorem keeps_onStation {β : Type} {a : Action Fault (Station α) β} (ha : a.Keeps view) :
    (onStation a).Keeps fun rig => view rig.station := fun rig => ha rig.station

theorem keeps_onAccelerator (view : Station α → τ) {β : Type} (a : Action Fault (Accelerator α) β) :
    (onAccelerator a).Keeps fun rig => view rig.station := fun _ => rfl

theorem keeps_accelerator_note (n : AcceleratorNote α) : (note n).Keeps Rig.accelerator := fun _ => rfl

theorem keeps_note (h : Station.Steady view) (n : AcceleratorNote α) : (note n).Keeps fun rig => view rig.station :=
  fun rig => h.plant (s := rig.station) (rig.plant.fixtures_note _)

theorem keeps_putEntry (view : Station α → τ) (n : Nat) (entry : CachedBunch α) :
    (putEntry n entry).Keeps fun rig => view rig.station :=
  keeps_onAccelerator view _

variable [Scalar α]

/-! ### Calls -/

section Calls

variable {P : Rig α → Prop}

section

variable (hnote : ∀ n, (note n).Upholds P)
  (haccelerator : ∀ a : Action Fault (Accelerator α) Unit, (onAccelerator a).Upholds P)

include hnote haccelerator

omit [Scalar α] in
theorem upholds_setIncremental (flag : Bool) : (setIncremental flag : Action Fault (Rig α) Unit).Upholds P :=
  (haccelerator _).bind fun _ => hnote _

omit [Scalar α] in
theorem upholds_setSegment (m : Model α) (argument : SegmentArgument) : (setSegment m argument).Upholds P := by
  refine (Action.upholds_lift _).bind fun s => ?_
  refine (haccelerator _).bind fun _ => ?_
  exact (hnote _).bind fun _ => Action.upholds_pure _

theorem upholds_initialise (beam : ReferenceBeam α) (states : Datum) : (initialise beam states).Upholds P := by
  have hadd (count : Nat) : (addStates beam count).Upholds P := by
    induction count with
    | zero => exact Action.upholds_pure _
    | succ count ih =>
      refine (Action.upholds_lift _).bind fun b => ?_
      exact (haccelerator _).bind fun _ => ih
  have hcount : (do
      addStates beam (states.whole?.getD 0).toNat
      note (.initialised states.display)
      let a ← Action.ask Rig.accelerator
      pure (a.cache.map (·.bunch)) : Action Fault (Rig α) (List (Bunch α))).Upholds P := by
    refine (hadd _).bind fun _ => ?_
    refine (hnote _).bind fun _ => ?_
    exact (Action.upholds_ask _).bind fun _ => Action.upholds_pure _
  refine (Action.upholds_lift _).bind fun negative => ?_
  cases negative with
  | true => exact fun _ hs => hs
  | false =>
    refine (haccelerator _).bind fun _ => ?_
    cases states with
    | float x => exact Action.upholds_throw _
    | _ => exact hcount

end

section

variable (hnote : ∀ n, (note n).Upholds P) (hput : ∀ n entry, (putEntry n entry).Upholds P)

include hnote hput

theorem upholds_rewind (n : Nat) (entry : CachedBunch α) (state : String) (s : Segment) :
    (rewind n entry state s).Upholds P := by
  have hpristine : (do
      let initial ← Action.lift entry.initial.copy
      let entry := { entry.rewound with bunch := initial }
      putEntry n entry
      pure entry : Action Fault (Rig α) (CachedBunch α)).Upholds P := by
    refine (Action.upholds_lift _).bind fun initial => ?_
    exact (hput n _).bind fun _ => Action.upholds_pure _
  unfold rewind
  split
  · dsimp only
    split
    · exact (hnote _).bind fun _ => hpristine
    · exact hpristine
  · exact Action.upholds_pure _

theorem upholds_advance {m : Model α} (htrack : ∀ r b, m.Spans r → (trackFrom r b).Upholds P) (n : Nat)
    (entry : CachedBunch α) (state : String) (s : Segment) : (advance m n entry state s).Upholds P := by
  refine (upholds_rewind hnote hput n entry state s).bind fun entry => ?_
  split
  · exact Action.upholds_pure _
  · refine (hnote _).bind fun _ => ?_
    refine Action.upholds_lift_bind fun gap hgap => ?_
    refine (htrack gap _ (Model.spans_of_subrange hgap)).bind fun b => ?_
    exact (hput n _).bind fun _ => Action.upholds_pure _

/-- All ranges that a state is tracked through are parts of the line. -/
theorem upholds_trackState {m : Model α} (htrack : ∀ r b, m.Spans r → (trackFrom r b).Upholds P) (state : Datum)
    (argument : SegmentArgument) : (trackState m state argument).Upholds P := by
  have hfinish (first : Nat) (s : Segment) (b : Bunch α) : (do
      let r ← Action.lift (m.subrange first s.last)
      let b ← trackFrom r b
      note (.finalMomentum b.momentum)
      pure b : Action Fault (Rig α) (Bunch α)).Upholds P := by
    refine Action.upholds_lift_bind fun r hr => ?_
    refine (htrack r b (Model.spans_of_subrange hr)).bind fun b => ?_
    exact (hnote _).bind fun _ => Action.upholds_pure _
  refine (Action.upholds_ask _).bind fun a => ?_
  refine (Action.upholds_lift _).bind fun s => ?_
  refine (Action.upholds_lift _).bind fun found => ?_
  refine (hnote _).bind fun _ => ?_
  dsimp only
  split
  · exact (upholds_advance hnote hput htrack found.1 found.2 state.display s).bind fun entry => hfinish _ s _
  · exact hfinish 0 s _

end

section

variable {view : Rig α → τ}

theorem keeps_rewind (hnote : ∀ n, (note n).Keeps view) (hput : ∀ n entry, (putEntry n entry).Keeps view) (n : Nat)
    (entry : CachedBunch α) (state : String) (s : Segment) : (rewind n entry state s).Keeps view :=
  Action.keeps_of_upholds fun v =>
    upholds_rewind (fun n => (hnote n).upholds_view v) (fun n entry => (hput n entry).upholds_view v) n entry state s

theorem keeps_trackState (hnote : ∀ n, (note n).Keeps view) (hput : ∀ n entry, (putEntry n entry).Keeps view)
    (htrack : ∀ r b, (trackFrom r b).Keeps view) (m : Model α) (state : Datum) (argument : SegmentArgument) :
    (trackState m state argument).Keeps view :=
  Action.keeps_of_upholds fun v =>
    upholds_trackState (fun n => (hnote n).upholds_view v) (fun n entry => (hput n entry).upholds_view v)
      (fun r b _ => (htrack r b).upholds_view v) state argument

end

omit [Scalar α] in
theorem keeps_setIncremental (h : Station.Steady view) (flag : Bool) :
    (setIncremental flag : Action Fault (Rig α) Unit).Keeps fun rig => view rig.station :=
  Action.keeps_of_upholds fun v =>
    upholds_setIncremental (fun n => (keeps_note h n).upholds_view v)
      (fun a => (keeps_onAccelerator view a).upholds_view v) flag

omit [Scalar α] in
theorem keeps_setSegment (h : Station.Steady view) (m : Model α) (argument : SegmentArgument) :
    (setSegment m argument).Keeps fun rig => view rig.station :=
  Action.keeps_of_upholds fun v =>
    upholds_setSegment (fun n => (keeps_note h n).upholds_view v)
      (fun a => (keeps_onAccelerator view a).upholds_view v) m argument

theorem keeps_initialise (h : Station.Steady view) (beam : ReferenceBeam α) (states : Datum) :
    (initialise beam states).Keeps fun rig => view rig.station :=
  Action.keeps_of_upholds fun v =>
    upholds_initialise (fun n => (keeps_note h n).upholds_view v)
      (fun a => (keeps_onAccelerator view a).upholds_view v) beam states

end Calls

/-! ### Tracking from a bunch -/

def transport (rig : Rig α) (r : Range α) : Bunch α → Except Fault (Bunch α) :=
  r.transport (rig.plant.processesOf rig.tracker.processes) rig.plant.signals

theorem transport_of_regime {rig rig' : Rig α} (h : rig'.regime = rig.regime) : rig'.transport = rig.transport :=
  Station.transport_of_regime h

theorem keeps_accelerator_trackFrom (r : Range α) (b : Bunch α) : (trackFrom r b).Keeps Rig.accelerator :=
  keeps_accelerator_onStation _

theorem keeps_trackFrom (h : Station.Steady view) (r : Range α) (b : Bunch α) :
    (trackFrom r b).Keeps fun rig => view rig.station := by
  apply keeps_onStation
  refine (Station.keeps_setRange h r).bind fun _ => ?_
  exact (Station.keeps_setInitial h _).bind fun _ => Station.keeps_trackCopy h

theorem outcome_trackFrom (r : Range α) (b : Bunch α) (rig : Rig α) :
    ((trackFrom r b).run rig).1 = (do let b ← b.copy; rig.transport r b) := by
  obtain ⟨s, hrun, hrange, hinitial, hregime⟩ : ∃ s : Station α,
      ((trackFrom r b).run rig).1 = (Station.trackCopy.run s).1 ∧ s.tracker.range = some r ∧
        s.tracker.initial = some (.own (.table b)) ∧ s.regime = rig.regime := by
    refine ⟨⟨{ rig.tracker with range := some r, stepper := none, initial := some (.own (.table b)) }, _⟩,
      rfl, rfl, rfl, ?_⟩
    exact Station.regime_of_setup (s := rig.station) (Prod.ext (Plant.fixtures_note _ _) rfl)
  rw [hrun, Station.outcome_trackCopy hrange hinitial, Station.transport_of_regime hregime]
  rfl

theorem keeps_trackNewBunch (h : Station.Steady view) (m : Model α) (beam : ReferenceBeam α) :
    (trackNewBunch m beam).Keeps fun rig => view rig.station := by
  refine (Action.keeps_lift _).bind fun b => ?_
  refine (Action.keeps_lift _).bind fun line => ?_
  refine Action.Keeps.bind ?_ fun b => (keeps_note h _).bind fun _ => Action.keeps_pure _
  apply keeps_onStation
  refine (Station.keeps_setRange h line).bind fun _ => ?_
  refine (Station.keeps_trackBunch h b).bind fun tracked => ?_
  exact (Action.keeps_lift _).bind fun _ => Action.keeps_pure _

theorem keeps_accelerator_trackNewBunch (m : Model α) (beam : ReferenceBeam α) :
    (trackNewBunch m beam).Keeps Rig.accelerator := by
  refine (Action.keeps_lift _).bind fun b => ?_
  refine (Action.keeps_lift _).bind fun line => ?_
  refine (keeps_accelerator_onStation _).bind fun b => ?_
  exact (keeps_accelerator_note _).bind fun _ => Action.keeps_pure _

end Rig

end BeamOptics
