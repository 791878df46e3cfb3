import BeamOptics.Proofs.ClosedOrbit.Frame
import BeamOptics.Proofs.Session.Basic
import BeamOptics.Session.Orbit

/-!
# What orbit searches of a session leave alone

A search first looks up and reads what it was given; if that fails, nothing has happened. From then on, whether it
returns or fails, the tracker of the solver is on the range that was searched, and the rest of the session is as it was:
only readings of monitors in that range, the log and the records of observers can have changed. An excursion leaves the
tracker of the solver alone as well.
-/

namespace BeamOptics

/-- A plant that differs from an earlier one in its log, its levels, records of observers, and readings under some tags
at most. -/
structure Plant.SameBut {α : Type} (tags : List Nat) (before after : Plant α) : Prop where
  processes : after.processes = before.processes
  bunches : after.bunches = before.bunches
  strengths : after.signals.strengths = before.signals.strengths
  readings : ∀ tag ∉ tags, after.signals.readings.get? tag = before.signals.readings.get? tag

theorem Plant.sameBut_of_apart {α : Type} {tags : List Nat} {before after : Plant α}
    (h : after.apart tags = before.apart tags) : before.SameBut tags after where
  processes := (congrArg Plant.processes h :)
  bunches := (congrArg Plant.bunches h :)
  strengths := Signals.strengths_of_apart (congrArg Plant.signals h)
  readings _ htag := Signals.reading_of_apart (congrArg Plant.signals h) htag

namespace Session

/-! ### Looking up -/

theorem keeps_solver (name : String) : (solver name).Keeps id :=
  (keeps_pick _ name).bind fun number => keeps_entry _ number

/-- What a search is made with, once everything has been looked up and read. -/
structure OrbitRequest where
  solver : Solver
  config : OrbitConfig Float
  range : Range Float
  guess : PhaseVector Float

def orbitRequest (on : String) (guess : Nested Float) (choice : SegmentChoice) : Work OrbitRequest := do
  let s ← solver on
  let argument ← segmentArgument choice
  let guess ← Action.lift (guess.phaseVector Fault.guessShape)
  let m ← entry models s.model
  let r ← Action.lift (argument.range m)
  let c ← entry configs s.config
  pure ⟨s, c, r, guess⟩

theorem keeps_orbitRequest (on : String) (guess : Nested Float) (choice : SegmentChoice) :
    (orbitRequest on guess choice).Keeps id := by
  refine (keeps_solver on).bind fun s => ?_
  refine (keeps_segmentArgument choice).bind fun argument => ?_
  refine (Action.keeps_lift _).bind fun guess => ?_
  refine (keeps_entry _ _).bind fun m => ?_
  refine (Action.keeps_lift _).bind fun r => ?_
  exact (keeps_entry _ _).bind fun c => Action.keeps_pure _

def search (decompose : Decomposer Float) (q : OrbitRequest) (as : Option String) : Work (OrbitResult Float) := do
  let result ← onStation q.solver.tracker (OrbitSearch.find decompose q.config q.solver.momentum q.range q.guess)
  bindIf as (.result result)
  pure result

theorem findOrbit_eq (decompose : Decomposer Float) (on : String) (guess : Nested Float) (choice : SegmentChoice)
    (as : Option String) :
    findOrbit on guess choice as decompose = orbitRequest on guess choice >>= fun q => search decompose q as := by
  simp only [findOrbit, orbitRequest, search, bind_assoc, pure_bind]

structure ExcursionRequest where
  solver : Solver
  start : PhaseVector Float
  model : Model Float
  tracker : Tracker Float

def excursionRequest (on : String) (start : Nested Float) : Work ExcursionRequest := do
  let s ← solver on
  let start ← Action.lift (start.phaseVector Fault.startShape)
  let m ← entry models s.model
  let t ← entry trackers s.tracker
  pure ⟨s, start, m, t⟩

theorem keeps_excursionRequest (on : String) (start : Nested Float) : (excursionRequest on start).Keeps id := by
  refine (keeps_solver on).bind fun s => ?_
  refine (Action.keeps_lift _).bind fun start => ?_
  refine (keeps_entry _ _).bind fun m => ?_
  exact (keeps_entry _ _).bind fun t => Action.keeps_pure _

theorem excursion_eq (on : String) (start : Nested Float) :
    excursion on start = excursionRequest on start >>= fun q =>
      onPlant (Rms.excursion q.model q.tracker.config q.solver.momentum q.start) := by
  simp only [excursion, excursionRequest, bind_assoc, pure_bind]

/-! ### Searching -/

theorem run_onStation {β : Type} {number : Nat} {s : Session} {t : Tracker Float}
    (h : s.trackers.get? number = some t) (a : Action Fault (Station Float) β) :
    (onStation number a).run s =
      ((a.run ⟨t, s.plant⟩).1,
        { s with
          plant := (a.run ⟨t, s.plant⟩).2.plant
          trackers := s.trackers.insert number (a.run ⟨t, s.plant⟩).2.tracker }) := by
  rw [onStation, Action.run_bind_of_ok (run_entry h)]
  rfl

/-- A search on a tracker that is there ends with its own plant and tracker in their places, and at most the name for
its result is new. -/
theorem run_search (decompose : Decomposer Float) {q : OrbitRequest} {s : Session} {t : Tracker Float}
    (h : s.trackers.get? q.solver.tracker = some t) (as : Option String) :
    ∃ names, ((search decompose q as).run s).2 =
        { s with
          plant := ((OrbitSearch.find decompose q.config q.solver.momentum q.range q.guess).run ⟨t, s.plant⟩).2.plant
          trackers := s.trackers.insert q.solver.tracker
            ((OrbitSearch.find decompose q.config q.solver.momentum q.range q.guess).run ⟨t, s.plant⟩).2.tracker
          names } ∧
      ∀ name, as ≠ some name → names.get? name = s.names.get? name := by
  unfold search
  rw [Action.run_bind, run_onStation h]
  cases ((OrbitSearch.find decompose q.config q.solver.momentum q.range q.guess).run ⟨t, s.plant⟩).1 with
  | error fault => exact ⟨s.names, rfl, fun _ _ => rfl⟩
  | ok result =>
    cases as with
    | none => exact ⟨s.names, rfl, fun _ _ => rfl⟩
    | some given =>
      refine ⟨s.names.insert given (.result result), rfl, ?_⟩
      intro name hname
      exact Table.get?_insert_of_ne s.names _ fun h => hname (congrArg some h)

theorem run_search_of_none (decompose : Decomposer Float) {q : OrbitRequest} {s : Session}
    (h : s.trackers.get? q.solver.tracker = none) (as : Option String) : ((search decompose q as).run s).2 = s := by
  rw [search, onStation, Action.run_bind_of_error (Action.run_bind_of_error (run_entry_of_none h) _)]

/-- What has become of a session through a search. The tables of models, beams, settings, accelerators and solvers are
among what is the same. -/
structure AfterSearch (q : OrbitRequest) (as : Option String) (before after : Session) : Prop where
  rest : after = { before with plant := after.plant, trackers := after.trackers, names := after.names }
  tracker : ∀ t, before.trackers.get? q.solver.tracker = some t →
    after.trackers = before.trackers.insert q.solver.tracker { t with range := some q.range, stepper := none }
  /-- Without a tracker there is no search. -/
  idle : before.trackers.get? q.solver.tracker = none → after = before
  plant : before.plant.SameBut q.range.monitorTags after.plant
  levels : after.plant.levels = before.plant.levels
  names : ∀ name, as ≠ some name → after.names.get? name = before.names.get? name

theorem after_search (decompose : Decomposer Float) {q : OrbitRequest} (as : Option String) {s : Session}
    (hholds : ∀ t, s.trackers.get? q.solver.tracker = some t → s.plant.Holds t.processes) :
    AfterSearch q as s ((search decompose q as).run s).2 := by
  cases htracker : s.trackers.get? q.solver.tracker with
  | none =>
    rw [run_search_of_none decompose htracker]
    exact ⟨rfl, fun t ht => absurd (htracker.symm.trans ht) nofun, fun _ => rfl, Plant.sameBut_of_apart rfl, rfl,
      fun _ _ => rfl⟩
  | some t =>
    obtain ⟨names, hafter, hnames⟩ := run_search decompose htracker as
    obtain ⟨hplant, -⟩ := OrbitSearch.leaves_find decompose q.config q.solver.momentum q.range q.guess ⟨t, s.plant⟩
    have hfind := OrbitSearch.tracker_find decompose q.config q.solver.momentum q.range q.guess
      (show (⟨t, s.plant⟩ : Station Float).plant.Holds t.processes from hholds t htracker)
    rw [hfind] at hafter
    rw [hafter]
    refine ⟨rfl, ?_, ?_, Plant.sameBut_of_apart hplant, (congrArg Plant.levels hplant :), hnames⟩
    · intro t' ht'
      obtain rfl := Option.some.inj (htracker.symm.trans ht')
      rfl
    · intro hnone
      exact absurd (htracker.symm.trans hnone) nofun

/-! ### Excursions -/

/-- What has become of a session through an excursion. Nothing but the plant can be different, and its log is written
at the level that the settings of the tracker give. -/
structure AfterExcursion (q : ExcursionRequest) (before after : Session) : Prop where
  rest : after = { before with plant := after.plant }
  plant : before.plant.SameBut (Element.monitorTags q.model.elements) after.plant
  records : after.plant.records = before.plant.records
  otherLevels : ∀ name ≠ q.tracker.name, after.plant.levels.get? name = before.plant.levels.get? name
  level : before.plant.levels.get? q.tracker.name = some q.tracker.config.level →
    after.plant.levels.get? q.tracker.name = some q.tracker.config.level

theorem after_excursion (q : ExcursionRequest) (s : Session) :
    AfterExcursion q s ((onPlant (Rms.excursion q.model q.tracker.config q.solver.momentum q.start)).run s).2 := by
  obtain ⟨levels, hlevels, hunread⟩ :=
    Rms.leaves_excursion q.model q.tracker.config q.solver.momentum q.start s.plant
  have hafter : ((onPlant (Rms.excursion q.model q.tracker.config q.solver.momentum q.start)).run s).2 =
      { s with plant := ((Rms.excursion q.model q.tracker.config q.solver.momentum q.start).run s.plant).2 } := rfl
  rw [hafter]
  generalize ((Rms.excursion q.model q.tracker.config q.solver.momentum q.start).run s.plant).2 = plant at hunread
  obtain ⟨hprocesses, hbunches, hstrengths, hreadings⟩ := Plant.sameBut_of_apart (Plant.apart_of_unread hunread)
  have hrecords : plant.records = s.plant.records := (congrArg Plant.records hunread :)
  have hlevel : plant.levels = levels := (congrArg Plant.levels hunread :)
  refine ⟨rfl, ⟨hprocesses, hbunches, hstrengths, hreadings⟩, hrecords, ?_, ?_⟩
  · intro name hname
    rw [hlevel]
    rcases hlevels with rfl | rfl
    · rfl
    · exact Table.get?_insert_of_ne _ _ hname.symm
  · intro hown
    rw [hlevel]
    rcases hlevels with rfl | rfl
    · exact hown
    · exact Table.get?_insert_self _ _ _

/-! ### Both kinds of work -/

/-- Searches and excursions of a solver. What cannot be looked up or read leaves the session as it was. From then on
the session is left as after a search or after an excursion, whatever the outcome and however matrices are
decomposed. -/
theorem orbit_work_frames {s : Session}
    (hholds : ∀ number t, s.trackers.get? number = some t → s.plant.Holds t.processes) (on : String)
    (start : Nested Float) :
    (∀ (decompose : Decomposer Float) (choice : SegmentChoice) (as : Option String),
      (∀ fault, ((orbitRequest on start choice).run s).1 = .error fault →
        (findOrbit on start choice as decompose).run s = (.error fault, s)) ∧
      ∀ q, ((orbitRequest on start choice).run s).1 = .ok q →
        AfterSearch q as s ((findOrbit on start choice as decompose).run s).2) ∧
      (∀ fault, ((excursionRequest on start).run s).1 = .error fault →
        (excursion on start).run s = (.error fault, s)) ∧
      ∀ q, ((excursionRequest on start).run s).1 = .ok q → AfterExcursion q s ((excursion on start).run s).2 := by
  refine ⟨fun decompose choice as => ⟨?_, ?_⟩, ?_, ?_⟩
  · intro fault hrequest
    rw [findOrbit_eq, run_bind_of_keeps (keeps_orbitRequest on start choice), hrequest]
  · intro q hrequest
    rw [findOrbit_eq, run_bind_of_keeps (keeps_orbitRequest on start choice), hrequest]
    exact after_search decompose as fun t ht => hholds _ t ht
  · intro fault hrequest
    rw [excursion_eq, run_bind_of_keeps (keeps_excursionRequest on start), hrequest]
  · intro q hrequest
    rw [excursion_eq, run_bind_of_keeps (keeps_excursionRequest on start), hrequest]
    exact after_excursion q s

end Session

namespace MonitoredRing

/-- A ring of one monitor, and a solver whose tracker has one check attached twice. -/
def session : Session where
  plant := { processes := Table.empty.insert 0 (.finiteness false) }
  names := Table.empty.insert "finder" (.solver 0)
  models := Table.empty.insert 0 ⟨"ring", [⟨7, "M", "Monitor", 1, .monitor 0 0⟩], []⟩
  configs := Table.empty.insert 0 OrbitConfig.standard
  trackers := Table.empty.insert 0 { processes := [0, 0] }
  solvers := Table.empty.insert 0 ⟨0, 1, 0, 0⟩

def origin : Nested Float := Nested.ofList [0, 0, 0, 0, 0, 0]

theorem holds_session (number : Nat) (t : Tracker Float) (h : session.trackers.get? number = some t) :
    session.plant.Holds t.processes := by
  have hget : session.trackers.get? number = if 0 = number then some { processes := [0, 0] } else none :=
    Table.get?_insert _ _ _ _
  rw [hget] at h
  split at h
  · obtain rfl := Option.some.inj h
    intro n hn
    obtain rfl : n = 0 := by simpa using hn
    exact ⟨_, rfl⟩
  · cases h

end MonitoredRing

namespace Session

open MonitoredRing in
theorem orbit_work_frames_monitored :
    (∀ number t, session.trackers.get? number = some t → session.plant.Holds t.processes) ∧
      (∃ fault, (findOrbit "finder" (.leaf 0) (.plain .null) none).run session = (.error fault, session)) ∧
      (∃ q, q.solver.tracker = 0 ∧
        AfterSearch q none session ((findOrbit "finder" origin (.plain .null) none).run session).2) ∧
      (∃ fault, (excursion "finder" (.leaf 0)).run session = (.error fault, session)) ∧
      ∃ q, q.solver.tracker = 0 ∧ AfterExcursion q session ((excursion "finder" origin).run session).2 := by
  obtain ⟨hsearch, hfault, hexcursion⟩ := orbit_work_frames holds_session "finder" (.leaf 0)
  obtain ⟨hsearchOrigin, -, hexcursionOrigin⟩ := orbit_work_frames holds_session "finder" origin
  obtain ⟨fault, hrefused⟩ := exists_error_of_isNone
    (show ((orbitRequest "finder" (.leaf 0) (.plain .null)).run session).1.toOption.isNone = true by decide +kernel)
  obtain ⟨q, hq, hnumber⟩ := exists_ok_of_any
    (show ((orbitRequest "finder" origin (.plain .null)).run session).1.toOption.any (·.solver.tracker == 0) = true by
      decide +kernel)
  obtain ⟨fault', hrefused'⟩ := exists_error_of_isNone
    (show ((excursionRequest "finder" (.leaf 0)).run session).1.toOption.isNone = true by decide +kernel)
  obtain ⟨q', hq', hnumber'⟩ := exists_ok_of_any
    (show ((excursionRequest "finder" origin).run session).1.toOption.any (·.solver.tracker == 0) = true by
      decide +kernel)
  refine ⟨holds_session, ⟨fault, (hsearch _ _ none).1 fault hrefused⟩, ⟨q, beq_iff_eq.mp hnumber, ?_⟩,
    ⟨fault', hfault fault' hrefused'⟩, q', beq_iff_eq.mp hnumber', hexcursionOrigin q' hq'⟩
  exact (hsearchOrigin _ _ none).2 q hq

end Session

end BeamOptics
