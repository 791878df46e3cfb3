import BeamOptics.Proofs.Accelerator.Frame
import BeamOptics.Proofs.Session.Lines
import BeamOptics.Proofs.Session.Orbit
import BeamOptics.Proofs.Tracking.Cursor
import BeamOptics.Session.Accelerator

/-!
# Stepping in a session

Callers set ranges, step, track, attach processes and search orbits in any order, and accelerators and solvers work with
the same trackers. Whatever they do, the cursor of a tracker stays within its active range or right behind it. So the
current element is an element of the range, and from any state stepping through the range agrees with tracking through
it.
-/

namespace BeamOptics

namespace Rig

variable {α : Type}

/-! ### Accelerators -/

def OnCourse (rig : Rig α) : Prop := rig.tracker.OnCourse

theorem upholds_onStation {β : Type} {a : Action Fault (Station α) β} (ha : a.Upholds Station.OnCourse) :
    (onStation a).Upholds OnCourse := fun rig h => ha rig.station h

theorem upholds_note (n : AcceleratorNote α) : (note n).Upholds OnCourse := fun _ h => h

theorem upholds_onAccelerator {β : Type} (a : Action Fault (Accelerator α) β) : (onAccelerator a).Upholds OnCourse :=
  fun _ h => h

variable [Scalar α]

theorem upholds_trackFrom {r : Range α} (hr : r.elements ≠ []) (b : Bunch α) : (trackFrom r b).Upholds OnCourse := by
  apply upholds_onStation
  refine (Station.upholds_setRange hr).bind fun _ => ?_
  refine (Station.upholds_of_keeps (Station.keeps_position_setInitial _)).bind fun _ => ?_
  exact Station.upholds_of_keeps (Station.keeps_position Station.keeps_tracker_trackCopy)

theorem upholds_trackNewBunch (m : Model α) (beam : ReferenceBeam α) : (trackNewBunch m beam).Upholds OnCourse := by
  refine (Action.upholds_lift _).bind fun b => ?_
  refine Action.upholds_lift_bind fun line hline => ?_
  refine Action.Upholds.bind ?_ fun b => (upholds_note _).bind fun _ => Action.upholds_pure _
  apply upholds_onStation
  refine (Station.upholds_setRange (Model.spans_of_beamline hline).elements_ne_nil).bind fun _ => ?_
  refine (Station.upholds_of_keeps (Station.keeps_position (Station.keeps_tracker_ride b _))).bind fun tracked => ?_
  exact (Action.upholds_lift _).bind fun _ => Action.upholds_pure _

end Rig

namespace Session

/-! ### Work in a session -/

/-- All trackers are on their course. -/
def OnCourse (s : Session) : Prop := ∀ number t, s.trackers.get? number = some t → t.OnCourse

variable {β γ : Type}

theorem upholds_of_keeps {a : Work β} (ha : a.Keeps trackers) : a.Upholds OnCourse :=
  ha.upholds fun s s' htrackers h => by rwa [OnCourse, htrackers]

theorem OnCourse.insert {s s' : Session} (h : s.OnCourse) {number : Nat} {t : Tracker Float} (ht : t.OnCourse)
    (htrackers : s'.trackers = s.trackers.insert number t) : s'.OnCourse := by
  intro number' t' ht'
  rw [htrackers, Table.get?_insert] at ht'
  split at ht'
  · rwa [← Option.some.inj ht']
  · exact h number' t' ht'

theorem upholds_onStation {number : Nat} {a : Action Fault (Station Float) β} (ha : a.Upholds Station.OnCourse) :
    (onStation number a).Upholds OnCourse := by
  intro s hs
  cases hnumber : s.trackers.get? number with
  | none =>
    rw [onStation, Action.run_bind_of_error (run_entry_of_none hnumber)]
    exact hs
  | some t =>
    rw [run_onStation hnumber]
    exact hs.insert (ha ⟨t, s.plant⟩ (hs number t hnumber)) rfl

theorem upholds_onRig {number : Nat} {a : Action Fault (Rig Float) β} (ha : a.Upholds Rig.OnCourse) :
    (onRig number a).Upholds OnCourse := by
  intro s hs
  cases hnumber : s.assemblies.get? number with
  | none =>
    rw [onRig, Action.run_bind_of_error (run_entry_of_none hnumber)]
    exact hs
  | some assembly =>
    cases htracker : s.trackers.get? assembly.tracker with
    | none =>
      rw [onRig, Action.run_bind_of_ok (run_entry hnumber), Action.run_bind_of_error (run_entry_of_none htracker)]
      exact hs
    | some t =>
      rw [onRig, Action.run_bind_of_ok (run_entry hnumber), Action.run_bind_of_ok (run_entry htracker)]
      exact hs.insert (ha ⟨assembly.accelerator, t, s.plant⟩ (hs _ t htracker)) rfl

theorem upholds_addTracker (config : TrackerConfig) : (addTracker config).Upholds OnCourse := by
  intro s hs
  have hnew : (Station.create config s.plant).tracker.OnCourse :=
    Tracker.onCourse_of_none (fun r (hr : none = some r) => nomatch hr) rfl
  exact hs.insert hnew rfl

/-- Looking something up comes before the work on it. -/
theorem upholds_bind_of_keeps {a : Work β} {f : β → Work γ} (ha : a.Keeps id) (hf : ∀ b, (f b).Upholds OnCourse) :
    (a >>= f).Upholds OnCourse := ha.upholds_of_id.bind hf

theorem keeps_trackers_bindIf (name : Option String) (h : Handle) : (bindIf name h).Keeps trackers := by
  cases name <;> exact fun _ => rfl

theorem keeps_trackers_keepBunch (name : Option String) (l : Load Float) : (keepBunch name l).Keeps trackers := by
  cases name <;> exact fun _ => rfl

theorem ne_nil_of_beamline {on : String} {extent : Extent} {s s' : Session} {r : Range Float}
    (h : (beamline on extent).run s = (.ok r, s')) : r.elements ≠ [] := by
  obtain ⟨number, m, -, hrange⟩ := exists_line (congrArg Prod.fst h)
  exact (spans_of_rangeOf hrange).elements_ne_nil

/-! ### Calls on trackers -/

theorem upholds_keepingPosition {number : Nat} {a : Action Fault (Station Float) β} (ha : a.Keeps Station.position) :
    (onStation number a).Upholds OnCourse := upholds_onStation (Station.upholds_of_keeps ha)

theorem upholds_rideShared (number bunchNumber : Nat) (a : Tracker Float → Action Fault (Ride Float) β) :
    (onStation number (Station.rideShared bunchNumber a)).Upholds OnCourse :=
  upholds_keepingPosition (Station.keeps_position (Station.keeps_tracker_rideShared bunchNumber a))

theorem upholds_createTracker (as : Option String) (d : Option Datum) : (createTracker as d).Upholds OnCourse := by
  have hadd (config : TrackerConfig) : (do
      let number ← addTracker config
      bindIf as (.tracker number)
      pure config : Work TrackerConfig).Upholds OnCourse := by
    refine (upholds_addTracker config).bind fun number => ?_
    exact upholds_of_keeps ((keeps_trackers_bindIf as _).bind fun _ => Action.keeps_pure _)
  cases d with
  | none => exact (Action.upholds_pure _).bind hadd
  | some d => exact (Action.upholds_lift _).bind hadd

theorem upholds_setInitialBunch (on bunch : String) (own : Bool) :
    (setInitialBunch on bunch own).Upholds OnCourse := by
  have hset (number : Nat) (initial : InitialBunch Float) :
      (onStation number (Station.setInitial initial)).Upholds OnCourse :=
    upholds_onStation (Station.upholds_of_keeps (Station.keeps_position_setInitial initial))
  refine upholds_bind_of_keeps (keeps_pick _ on) fun number => ?_
  refine upholds_bind_of_keeps (keeps_pick _ bunch) fun bunchNumber => ?_
  cases own with
  | true => exact hset number _
  | false =>
    refine upholds_bind_of_keeps (keeps_entry _ _) fun l => ?_
    exact (Action.upholds_lift _).bind fun l => hset number _

theorem upholds_spawn (on : String) (as : Option String) : (spawn on as).Upholds OnCourse := by
  refine upholds_bind_of_keeps ((keeps_pick _ on).bind fun number => keeps_entry _ number) fun t => ?_
  refine (upholds_addTracker t.config).bind fun number => ?_
  exact upholds_of_keeps ((keeps_trackers_bindIf as _).bind fun _ => (keeps_entry _ number).of_id)

theorem upholds_setActiveRange (on line : String) (extent : Extent) :
    (setActiveRange on line extent).Upholds OnCourse := by
  have hbeamline : (beamline line extent).Keeps id :=
    ((keeps_pick _ line).bind fun _ => keeps_entry _ _).bind fun _ => Action.keeps_lift _
  refine upholds_bind_of_keeps (keeps_pick _ on) fun number => ?_
  refine hbeamline.upholds_of_id.bind_of_ok fun r s s' hr => ?_
  exact upholds_onStation (Station.upholds_setRange (ne_nil_of_beamline hr))

theorem upholds_trackCopy (on : String) (as : Option String) : (trackCopy on as).Upholds OnCourse := by
  refine upholds_bind_of_keeps (keeps_pick _ on) fun number => ?_
  refine (upholds_keepingPosition (Station.keeps_position Station.keeps_tracker_trackCopy)).bind fun b => ?_
  exact upholds_of_keeps ((keeps_trackers_keepBunch as _).bind fun _ => Action.keeps_pure _)

theorem upholds_track (on bunch : String) : (track on bunch).Upholds OnCourse := by
  refine upholds_bind_of_keeps (keeps_pick _ on) fun number => ?_
  refine upholds_bind_of_keeps (keeps_pick _ bunch) fun bunchNumber => ?_
  refine (upholds_rideShared number bunchNumber _).outcome.bind fun outcome => ?_
  exact upholds_bind_of_keeps (keeps_entry _ _) fun after => Action.upholds_pure _

theorem upholds_trackElement (on bunch element : String) : (trackElement on bunch element).Upholds OnCourse := by
  refine upholds_bind_of_keeps (keeps_pick _ on) fun number => ?_
  refine upholds_bind_of_keeps (keeps_pick _ bunch) fun bunchNumber => ?_
  refine upholds_bind_of_keeps (keeps_pick _ element) fun e => ?_
  exact (upholds_rideShared number bunchNumber _).bind fun _ => (keeps_entry _ _).upholds_of_id

theorem upholds_initStepper (on bunch : String) : (initStepper on bunch).Upholds OnCourse := by
  refine upholds_bind_of_keeps (keeps_pick _ on) fun number => ?_
  refine upholds_bind_of_keeps (keeps_pick _ bunch) fun bunchNumber => ?_
  exact upholds_onStation (Station.upholds_initStepper bunchNumber)

theorem upholds_step (on : String) : (step on).Upholds OnCourse :=
  upholds_bind_of_keeps (keeps_pick _ on) fun _ => upholds_onStation Station.upholds_step

theorem keeps_trackerBehind (on : String) : (trackerBehind on).Keeps id := by
  refine (keeps_handle on).bind fun h => ?_
  cases h with
  | tracker number => exact Action.keeps_pure _
  | solver number => exact (keeps_entry _ _).bind fun _ => Action.keeps_pure _
  | _ => exact Action.keeps_throw _

theorem upholds_addProcess (on process : String) : (addProcess on process).Upholds OnCourse := by
  refine upholds_bind_of_keeps (keeps_trackerBehind on) fun number => ?_
  refine upholds_bind_of_keeps (keeps_pick _ process) fun processNumber => ?_
  exact upholds_keepingPosition (Station.keeps_position_attach processNumber)

theorem upholds_removeProcess (on process : String) : (removeProcess on process).Upholds OnCourse := by
  refine upholds_bind_of_keeps (keeps_trackerBehind on) fun number => ?_
  refine upholds_bind_of_keeps (keeps_pick _ process) fun processNumber => ?_
  exact upholds_keepingPosition (Station.keeps_position_detach processNumber)

theorem upholds_attached (on : String) (processes : List String) (interruption : Option String) {body : Work β}
    (hbody : body.Upholds OnCourse) : (attached on processes interruption body).Upholds OnCourse := by
  refine upholds_bind_of_keeps (keeps_pick _ on) fun number => ?_
  refine upholds_bind_of_keeps (Action.Keeps.mapM (keeps_pick _) processes) fun numbers => ?_
  refine (upholds_keepingPosition (Station.keeps_position_attachAll numbers)).bind fun _ => ?_
  refine hbody.outcome.bind fun result => ?_
  refine (upholds_keepingPosition (Station.keeps_position_detachAll numbers)).bind fun _ => ?_
  exact (Action.upholds_lift _).bind fun answers => Action.upholds_pure _

theorem upholds_addObserver (on observer : String) : (addObserver on observer).Upholds OnCourse := by
  refine upholds_bind_of_keeps (keeps_pick _ on) fun number => ?_
  refine upholds_bind_of_keeps (keeps_pick _ observer) fun o => ?_
  exact upholds_keepingPosition (Station.keeps_position_addObserver o)

theorem upholds_removeObserver (on observer : String) : (removeObserver on observer).Upholds OnCourse := by
  refine upholds_bind_of_keeps (keeps_pick _ on) fun number => ?_
  refine upholds_bind_of_keeps (keeps_pick _ observer) fun o => ?_
  exact upholds_keepingPosition (Station.keeps_position_removeObserver o)

/-! ### Calls on solvers -/

theorem upholds_createSolver (as : Option String) (model : String) (momentum : Float) (d : Option Datum)
    (tracker : Option String) : (createSolver as model momentum d tracker).Upholds OnCourse := by
  have hput (model : Nat) (settings : OrbitConfig Float) (tracker : Nat) : (do
      let config ← Action.ask fun s => s.configs.fresh
      let number ← Action.ask fun s => s.solvers.fresh
      modify fun s =>
        { s with
          configs := s.configs.insert config settings
          solvers := s.solvers.insert number { model, momentum, config, tracker } }
      bindIf as (.solver number)
      pure settings : Work (OrbitConfig Float)).Upholds OnCourse := by
    refine upholds_of_keeps ((Action.keeps_ask _).bind fun config => ?_)
    refine (Action.keeps_ask _).bind fun number => ?_
    refine Action.Keeps.bind (fun _ => rfl) fun _ => ?_
    exact (keeps_trackers_bindIf as _).bind fun _ => Action.keeps_pure _
  refine upholds_bind_of_keeps (keeps_pick _ model) fun modelNumber => ?_
  refine (Action.upholds_lift _).bind fun settings => ?_
  have hgiven : (tracker.mapM trackerNumber).Keeps id := by
    cases tracker with
    | none => exact Action.keeps_pure _
    | some name => exact (keeps_pick _ name).bind fun _ => Action.keeps_pure _
  refine upholds_bind_of_keeps hgiven fun given => ?_
  dsimp only
  split
  · exact fun _ hs => hs
  · cases given with
    | some number => exact (Action.upholds_pure _).bind (hput modelNumber settings)
    | none => exact (upholds_addTracker _).bind (hput modelNumber settings)

theorem upholds_findOrbit (on : String) (guess : Nested Float) (choice : SegmentChoice) (as : Option String)
    (decompose : Decomposer Float) : (findOrbit on guess choice as decompose).Upholds OnCourse := by
  refine upholds_bind_of_keeps (keeps_solver on) fun solver => ?_
  refine upholds_bind_of_keeps (keeps_segmentArgument choice) fun argument => ?_
  refine (Action.upholds_lift _).bind fun guess => ?_
  refine upholds_bind_of_keeps (keeps_entry _ _) fun m => ?_
  refine Action.upholds_lift_bind fun r hr => ?_
  refine upholds_bind_of_keeps (keeps_entry _ _) fun c => ?_
  have hr := (SegmentArgument.spans_of_range hr).elements_ne_nil
  refine (upholds_onStation (OrbitSearch.upholds_find hr _ c solver.momentum guess)).bind fun result => ?_
  exact upholds_of_keeps ((keeps_trackers_bindIf as _).bind fun _ => Action.keeps_pure _)

/-! ### Calls on accelerators -/

theorem upholds_createAccelerator (as : Option String) (name model beam : String) (tracker : Option String) :
    (createAccelerator as name model beam tracker).Upholds OnCourse := by
  refine upholds_bind_of_keeps (keeps_pick _ model) fun modelNumber => ?_
  refine upholds_bind_of_keeps (keeps_pick _ beam) fun beamNumber => ?_
  have hput (tracker : Nat) : (do
      let number ← Action.ask fun s => s.assemblies.fresh
      putAssembly number { accelerator := { name }, model := modelNumber, beam := beamNumber, tracker }
      bindIf as (.accelerator number)
      pure { name } : Work (Accelerator Float)).Keeps trackers := by
    refine (Action.keeps_ask _).bind fun number => ?_
    refine Action.Keeps.bind (fun _ => rfl) fun _ => ?_
    exact (keeps_trackers_bindIf as _).bind fun _ => Action.keeps_pure _
  cases tracker with
  | none => exact (upholds_addTracker _).bind fun number => upholds_of_keeps (hput number)
  | some tracker => exact upholds_bind_of_keeps (keeps_pick _ tracker) fun number => upholds_of_keeps (hput number)

theorem upholds_setTracker (on tracker : String) : (setTracker on tracker).Upholds OnCourse := by
  refine upholds_bind_of_keeps (keeps_pick _ on) fun number => ?_
  refine upholds_bind_of_keeps (keeps_pick _ tracker) fun trackerNumber => ?_
  refine upholds_bind_of_keeps (keeps_entry _ _) fun a => ?_
  refine Action.Upholds.bind (upholds_of_keeps fun _ => rfl) fun _ => ?_
  exact upholds_onRig (Rig.upholds_onAccelerator _)

theorem upholds_allowIncremental (on : String) (flag : Datum) : (allowIncremental on flag).Upholds OnCourse := by
  refine upholds_bind_of_keeps (keeps_pick _ on) fun number => ?_
  refine Action.Upholds.bind ?_ fun _ => Action.upholds_pure _
  exact upholds_onRig (Rig.upholds_setIncremental Rig.upholds_note Rig.upholds_onAccelerator _)

theorem upholds_setActiveSegment (on : String) (choice : SegmentChoice) :
    (setActiveSegment on choice).Upholds OnCourse := by
  have hset (number : Nat) : (setSegmentOf number choice).Upholds OnCourse := by
    refine upholds_bind_of_keeps (keeps_segmentArgument choice) fun argument => ?_
    refine upholds_bind_of_keeps (keeps_entry _ _) fun a => ?_
    refine upholds_bind_of_keeps (keeps_entry _ _) fun m => ?_
    exact upholds_onRig (Rig.upholds_setSegment Rig.upholds_note Rig.upholds_onAccelerator m argument)
  have hafter : (activeSegment on).Keeps id :=
    ((keeps_pick _ on).bind fun _ => keeps_entry _ _).bind fun _ => Action.keeps_pure _
  refine upholds_bind_of_keeps (keeps_pick _ on) fun number => ?_
  refine (hset number).outcome.bind fun outcome => ?_
  exact upholds_bind_of_keeps hafter fun after => Action.upholds_pure _

theorem upholds_initialise (on : String) (states : Datum) : (initialise on states).Upholds OnCourse := by
  refine upholds_bind_of_keeps (keeps_pick _ on) fun number => ?_
  refine upholds_bind_of_keeps (keeps_entry _ _) fun a => ?_
  refine upholds_bind_of_keeps (keeps_entry _ _) fun beam => ?_
  exact upholds_onRig (Rig.upholds_initialise Rig.upholds_note Rig.upholds_onAccelerator beam states)

theorem upholds_clearCache (on : String) : (clearCache on).Upholds OnCourse :=
  upholds_bind_of_keeps (keeps_pick _ on) fun _ => upholds_onRig (Rig.upholds_onAccelerator _)

theorem upholds_trackState (on : String) (state : Datum) (choice : SegmentChoice) (as : Option String) :
    (trackState on state choice as).Upholds OnCourse := by
  have htrack (number : Nat) : (trackStateOf number state choice as).Upholds OnCourse := by
    refine upholds_bind_of_keeps (keeps_segmentArgument choice) fun argument => ?_
    refine upholds_bind_of_keeps (keeps_entry _ _) fun a => ?_
    refine upholds_bind_of_keeps (keeps_entry _ _) fun m => ?_
    refine Action.Upholds.bind ?_ fun b => ?_
    · apply upholds_onRig
      refine Rig.upholds_trackState Rig.upholds_note (fun _ _ => Rig.upholds_onAccelerator _) ?_ state argument
      exact fun r b hr => Rig.upholds_trackFrom hr.elements_ne_nil b
    · exact upholds_of_keeps ((keeps_trackers_keepBunch as _).bind fun _ => Action.keeps_pure _)
  refine upholds_bind_of_keeps (keeps_pick _ on) fun number => ?_
  refine (htrack number).outcome.bind fun outcome => ?_
  refine upholds_bind_of_keeps (keeps_entry _ _) fun a => ?_
  exact upholds_bind_of_keeps (keeps_entry _ _) fun t => Action.upholds_pure _

theorem upholds_trackNewBunch (on : String) (as : Option String) : (trackNewBunch on as).Upholds OnCourse := by
  refine upholds_bind_of_keeps (keeps_pick _ on) fun number => ?_
  refine upholds_bind_of_keeps (keeps_entry _ _) fun a => ?_
  refine upholds_bind_of_keeps (keeps_entry _ _) fun m => ?_
  refine upholds_bind_of_keeps (keeps_entry _ _) fun beam => ?_
  refine (upholds_onRig (Rig.upholds_trackNewBunch m beam)).bind fun b => ?_
  exact upholds_of_keeps ((keeps_trackers_keepBunch as _).bind fun _ => Action.keeps_pure _)

/-! ### Programs -/

/-- Programs of calls on trackers, and on the accelerators and solvers that work with them. All other work leaves
trackers alone and can come in between. -/
inductive Program : {β : Type} → Work β → Prop
  | createTracker (as : Option String) (d : Option Datum) : Program (createTracker as d)
  | spawn (on : String) (as : Option String) : Program (spawn on as)
  | setActiveRange (on line : String) (extent : Extent) : Program (setActiveRange on line extent)
  | setInitialBunch (on bunch : String) (own : Bool) : Program (setInitialBunch on bunch own)
  | trackCopy (on : String) (as : Option String) : Program (trackCopy on as)
  | track (on bunch : String) : Program (track on bunch)
  | trackElement (on bunch element : String) : Program (trackElement on bunch element)
  | initStepper (on bunch : String) : Program (initStepper on bunch)
  | step (on : String) : Program (step on)
  | addProcess (on process : String) : Program (addProcess on process)
  | removeProcess (on process : String) : Program (removeProcess on process)
  | attached (on : String) (processes : List String) (interruption : Option String) {β : Type} {body : Work β}
    (hbody : Program body) : Program (attached on processes interruption body)
  | addObserver (on observer : String) : Program (addObserver on observer)
  | removeObserver (on observer : String) : Program (removeObserver on observer)
  | createSolver (as : Option String) (model : String) (momentum : Float) (d : Option Datum) (tracker : Option String) :
    Program (createSolver as model momentum d tracker)
  | findOrbit (on : String) (guess : Nested Float) (choice : SegmentChoice) (as : Option String)
    (decompose : Decomposer Float) : Program (findOrbit on guess choice as decompose)
  | createAccelerator (as : Option String) (name model beam : String) (tracker : Option String) :
    Program (createAccelerator as name model beam tracker)
  | setTracker (on tracker : String) : Program (setTracker on tracker)
  | allowIncremental (on : String) (flag : Datum) : Program (allowIncremental on flag)
  | setActiveSegment (on : String) (choice : SegmentChoice) : Program (setActiveSegment on choice)
  | initialise (on : String) (states : Datum) : Program (initialise on states)
  | clearCache (on : String) : Program (clearCache on)
  | trackState (on : String) (state : Datum) (choice : SegmentChoice) (as : Option String) :
    Program (trackState on state choice as)
  | trackNewBunch (on : String) (as : Option String) : Program (trackNewBunch on as)
  | beside {β : Type} {a : Work β} (ha : a.Keeps trackers) : Program a
  | outcome {β : Type} {a : Work β} (ha : Program a) : Program (a.outcome : Work (Except Fault β))
  | bind {β γ : Type} {a : Work β} {f : β → Work γ} (ha : Program a) (hf : ∀ b, Program (f b)) : Program (a >>= f)

theorem Program.upholds {program : Work β} (h : Program program) : program.Upholds OnCourse := by
  induction h with
  | createTracker as d => exact upholds_createTracker as d
  | spawn on as => exact upholds_spawn on as
  | setActiveRange on line extent => exact upholds_setActiveRange on line extent
  | setInitialBunch on bunch own => exact upholds_setInitialBunch on bunch own
  | trackCopy on as => exact upholds_trackCopy on as
  | track on bunch => exact upholds_track on bunch
  | trackElement on bunch element => exact upholds_trackElement on bunch element
  | initStepper on bunch => exact upholds_initStepper on bunch
  | step on => exact upholds_step on
  | addProcess on process => exact upholds_addProcess on process
  | removeProcess on process => exact upholds_removeProcess on process
  | attached on processes interruption _ ih => exact upholds_attached on processes interruption ih
  | addObserver on observer => exact upholds_addObserver on observer
  | removeObserver on observer => exact upholds_removeObserver on observer
  | createSolver as model momentum d tracker => exact upholds_createSolver as model momentum d tracker
  | findOrbit on guess choice as decompose => exact upholds_findOrbit on guess choice as decompose
  | createAccelerator as name model beam tracker => exact upholds_createAccelerator as name model beam tracker
  | setTracker on tracker => exact upholds_setTracker on tracker
  | allowIncremental on flag => exact upholds_allowIncremental on flag
  | setActiveSegment on choice => exact upholds_setActiveSegment on choice
  | initialise on states => exact upholds_initialise on states
  | clearCache on => exact upholds_clearCache on
  | trackState on state choice as => exact upholds_trackState on state choice as
  | trackNewBunch on as => exact upholds_trackNewBunch on as
  | beside ha => exact upholds_of_keeps ha
  | outcome _ ih => exact ih.outcome
  | bind _ _ iha ihf => exact iha.bind ihf

/-- A tracker, and the plant around it, after any program of calls. -/
inductive Reachable : Station Float → Prop
  | after {β : Type} {program : Work β} (h : Program program) {number : Nat} {t : Tracker Float}
    (ht : (program.run {}).2.trackers.get? number = some t) : Reachable ⟨t, (program.run {}).2.plant⟩

theorem Reachable.onCourse {s : Station Float} (h : Reachable s) : s.OnCourse := by
  obtain ⟨hprogram, ht⟩ := h
  exact hprogram.upholds {} (fun _ _ hnone => nomatch hnone) _ _ ht

/-- After any program of calls, the cursor of a tracker is unset, or within the active range or right behind it. Within
the range the current element is the element there; behind it, or without a cursor, a step fails and changes nothing. A
step that fails anywhere leaves the cursor. A new range unsets it, and tracking leaves the tracker alone. Stepping
through the active range with any table of particles does what tracking through it does: an element in each step,
another one to follow each but the last, and the same bunch in the end, whether tracking succeeds or fails. -/
theorem stepping_agrees_with_tracking {s : Station Float} (hs : Reachable s) :
    (∀ cursor, s.tracker.stepper = some cursor → ∃ r, s.tracker.range = some r ∧
      r.first ≤ cursor.index ∧ cursor.index ≤ r.last + 1 ∧
      (cursor.index ≤ r.last → ∃ e, r.elements[cursor.index - r.first]? = some e ∧ s.tracker.current = .ok e) ∧
      (r.last < cursor.index → Station.step.run s = (.error .stepperPastEnd, s))) ∧
    (s.tracker.stepper = none → Station.step.run s = (.error .stepperIdle, s)) ∧
    (∀ fault, (Station.step.run s).1 = .error fault → (Station.step.run s).2.tracker = s.tracker) ∧
    (∀ r, ((Station.setRange r).run s).2.tracker = { s.tracker with range := some r, stepper := none }) ∧
    (∀ number, ((Station.rideShared number Ride.track).run s).2.tracker = s.tracker) ∧
    (Station.trackCopy.run s).2.tracker = s.tracker ∧
    ∀ r number b, s.tracker.range = some r → s.plant.bunches.get? number = some (.table b) →
      s.StepsLikeTrack r number := by
  have hcourse : s.tracker.OnCourse := hs.onCourse
  refine ⟨?_, ?_, ?_, fun _ => rfl, ?_, ?_, ?_⟩
  · intro cursor hcursor
    obtain ⟨r, hrange, hfirst, hlast⟩ := hcourse.within cursor hcursor
    refine ⟨r, hrange, hfirst, hlast, hcourse.current_eq hrange hcursor, fun hbehind => ?_⟩
    exact Station.run_step_of_current (Tracker.current_of_pastEnd hrange hcursor hbehind)
  · intro hidle
    exact Station.run_step_of_current (Tracker.current_of_idle hidle)
  · intro fault hfault
    rcases Station.step_cases s with ⟨_, -, htracker⟩ | ⟨e, -, hok, -⟩
    · exact htracker
    · rw [hok] at hfault
      cases hfault
  · exact fun number => Station.keeps_tracker_rideShared number Ride.track s
  · exact Station.keeps_tracker_trackCopy s
  · intro r number b hrange hb
    exact Station.stepsLikeTrack hrange (hcourse.nonempty r hrange) hb

end Session

namespace SteppedLine

open Session

/-- Two drifts, and a particle before the first of them. -/
def prepare : Work Unit := do
  bind "D1" (.element ⟨0, "D1", "Drift", 1, .drift⟩)
  bind "D2" (.element ⟨1, "D2", "Drift", 1, .drift⟩)
  let _ ← createModel (some "line") "line" [.named "D1", .named "D2"] []
  keepBunch (some "bunch") (.table ⟨1, 1, [⟨0, 0.5, 0, 0, 0, 0⟩]⟩)

/-- A count of steps through the drifts. -/
def program : Nat → Work Unit
  | 0 => do
    prepare
    let _ ← createTracker (some "tracker") none
    setActiveRange "tracker" "line" .whole
    initStepper "tracker" "bunch"
  | n + 1 => do
    program n
    let _ ← step "tracker"

def stepped (n : Nat) : Session := ((program n).run {}).2

theorem isProgram (n : Nat) : Program (program n) := by
  induction n with
  | zero =>
    have hprepare : prepare.Keeps trackers := by
      refine Action.Keeps.bind (fun _ => rfl) fun _ => ?_
      refine Action.Keeps.bind (fun _ => rfl) fun _ => ?_
      refine ((keeps_createModel _ _ _ _).of_view fun _ _ h => (congrArg trackers h :)).bind fun _ => ?_
      exact keeps_trackers_keepBunch _ _
    refine .bind (.beside hprepare) fun _ => ?_
    refine .bind (.createTracker _ _) fun _ => ?_
    exact .bind (.setActiveRange _ _ _) fun _ => .initStepper _ _
  | succ n ih => exact .bind ih fun _ => .bind (.step _) fun _ => .beside (Action.keeps_pure _)

/-- The tracker has its cursor at an index, and the bunch is there. -/
def cursorIs (s : Session) (index : Nat) : Bool :=
  ((s.trackers.get? 0).any fun t => t.stepper == some ⟨0, index⟩ && t.range.any (·.last == 1)) &&
    (s.plant.bunches.get? 0).any fun l => l.bunch.toOption.isSome

theorem exists_of_cursorIs {n index : Nat} (h : cursorIs (stepped n) index = true) :
    ∃ t r b, Reachable ⟨t, (stepped n).plant⟩ ∧ t.stepper = some ⟨0, index⟩ ∧ t.range = some r ∧ r.last = 1 ∧
      (stepped n).plant.bunches.get? 0 = some (.table b) := by
  obtain ⟨htracker, hbunch⟩ := Bool.and_eq_true_iff.mp h
  obtain ⟨t, ht, hposition⟩ := (Option.any_eq_true _ _).mp htracker
  obtain ⟨hstepper, hrange⟩ := Bool.and_eq_true_iff.mp hposition
  obtain ⟨r, hr, hlast⟩ := (Option.any_eq_true _ _).mp hrange
  obtain ⟨l, hl, htable⟩ := (Option.any_eq_true _ _).mp hbunch
  cases l with
  | stack items => cases htable
  | table b => exact ⟨t, r, b, .after (isProgram n) ht, beq_iff_eq.mp hstepper, hr, beq_iff_eq.mp hlast, hl⟩

/-- The second drift comes after the first, and there is no third. -/
theorem stepping_agrees_on_drifts :
    (∃ t r e, Reachable ⟨t, (stepped 1).plant⟩ ∧ t.range = some r ∧ t.stepper = some ⟨0, 1⟩ ∧ t.current = .ok e ∧
      Station.StepsLikeTrack ⟨t, (stepped 1).plant⟩ r 0) ∧
    ∃ t, Reachable ⟨t, (stepped 2).plant⟩ ∧ t.stepper = some ⟨0, 2⟩ ∧
      Station.step.run ⟨t, (stepped 2).plant⟩ = (.error .stepperPastEnd, ⟨t, (stepped 2).plant⟩) := by
  constructor
  · obtain ⟨t, r, b, hreachable, hstepper, hrange, hlast, hb⟩ :=
      exists_of_cursorIs (show cursorIs (stepped 1) 1 = true by decide +kernel)
    obtain ⟨hcursor, -, -, -, -, -, hagrees⟩ := stepping_agrees_with_tracking hreachable
    obtain ⟨r', hrange', -, -, hwithin, -⟩ := hcursor _ hstepper
    obtain rfl := Option.some.inj (hrange.symm.trans hrange')
    obtain ⟨e, -, hcurrent⟩ := hwithin (Nat.le_of_eq hlast.symm)
    exact ⟨t, r, e, hreachable, hrange, hstepper, hcurrent, hagrees r 0 b hrange hb⟩
  · obtain ⟨t, r, b, hreachable, hstepper, hrange, hlast, -⟩ :=
      exists_of_cursorIs (show cursorIs (stepped 2) 2 = true by decide +kernel)
    obtain ⟨hcursor, -⟩ := stepping_agrees_with_tracking hreachable
    obtain ⟨r', hrange', -, -, -, hpast⟩ := hcursor _ hstepper
    obtain rfl := Option.some.inj (hrange.symm.trans hrange')
    exact ⟨t, hreachable, hstepper, hpast (Nat.lt_succ_of_le (Nat.le_of_eq hlast))⟩

end SteppedLine

end BeamOptics
