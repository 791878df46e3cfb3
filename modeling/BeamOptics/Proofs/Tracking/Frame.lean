import BeamOptics.Proofs.Tracking.Transport
import BeamOptics.Tracking.Stepper

/-!
# What tracking leaves alone

Tracking writes readings, notes and records of observers, and moves bunches. The strengths of elements and the
processes of the plant are not touched by it, whether it succeeds or fails, and where it leads a bunch is the
transport through the active range.
-/

namespace BeamOptics

namespace Plant

variable {α : Type}

/-! ### Plants -/

/-- What work on bunches has no hand in: the strengths of elements, and the processes with their settings. -/
def fixtures (p : Plant α) : Table Nat α × Table Nat (BeamProcess α) := (p.signals.strengths, p.processes)

/-- The plant but for its log. -/
def unlogged (p : Plant α) : Plant α := { p with notes := [] }

/-- The plant but for its log and the readings under some tags. -/
def unread (p : Plant α) (tags : List Nat) : Plant α := { p with signals := p.signals.apart tags, notes := [] }

/-- The plant but for its log, the readings under some tags, and the records of observers. -/
def apart (p : Plant α) (tags : List Nat) : Plant α := { p.unread tags with records := .empty }

theorem unread_of_unlogged {p p' : Plant α} (h : p'.unlogged = p.unlogged) (tags : List Nat) :
    p'.unread tags = p.unread tags := by
  change p'.unlogged.unread tags = p.unlogged.unread tags
  rw [h]

theorem apart_of_unread {p p' : Plant α} {tags : List Nat} (h : p'.unread tags = p.unread tags) :
    p'.apart tags = p.apart tags := by
  rw [apart, h, apart]

theorem apart_of_unlogged {p p' : Plant α} (h : p'.unlogged = p.unlogged) (tags : List Nat) :
    p'.apart tags = p.apart tags :=
  apart_of_unread (unread_of_unlogged h tags)

theorem fixtures_of_apart {p p' : Plant α} {tags : List Nat} (h : p'.apart tags = p.apart tags) :
    p'.fixtures = p.fixtures := by
  change (p'.apart tags).fixtures = (p.apart tags).fixtures
  rw [h]

theorem signals_of_apart_nil {p p' : Plant α} (h : p'.apart [] = p.apart []) : p'.signals = p.signals := by
  have happart : p'.signals.apart [] = p.signals.apart [] := congrArg Plant.signals h
  rwa [Signals.apart_nil, Signals.apart_nil] at happart

theorem fixtures_of_unlogged {p p' : Plant α} (h : p'.unlogged = p.unlogged) : p'.fixtures = p.fixtures :=
  fixtures_of_apart (apart_of_unlogged h [])

@[simp] theorem unlogged_note (p : Plant α) (n : Note α) : (p.note n).unlogged = p.unlogged := by
  unfold note
  split <;> rfl

theorem unlogged_noteAll (p : Plant α) (notes : List (Note α)) : (p.noteAll notes).unlogged = p.unlogged := by
  induction notes generalizing p with
  | nil => rfl
  | cons n rest ih => exact (ih (p.note n)).trans (p.unlogged_note n)

@[simp] theorem apart_note (p : Plant α) (tags : List Nat) (n : Note α) : (p.note n).apart tags = p.apart tags :=
  apart_of_unlogged (p.unlogged_note n) tags

@[simp] theorem fixtures_note (p : Plant α) (n : Note α) : (p.note n).fixtures = p.fixtures :=
  fixtures_of_unlogged (p.unlogged_note n)

theorem apart_tell (p : Plant α) (tags : List Nat) (tracker : String) (event : Event α) (o : Observer) :
    (p.tell tracker event o).apart tags = p.apart tags := by
  cases o with
  | logger => exact p.apart_note tags _
  | recorder number => rfl
  | failing number =>
    cases event with
    | start journey => exact p.apart_note tags _
    | complete journey momentum => rfl
    | error journey index fault => rfl

theorem apart_tellAll (p : Plant α) (tags : List Nat) (tracker : String) (observers : List Observer)
    (event : Event α) : (p.tellAll tracker observers event).apart tags = p.apart tags := by
  induction observers generalizing p with
  | nil => rfl
  | cons o rest ih => exact (ih (tell tracker event p o)).trans (p.apart_tell tags tracker event o)

theorem signals_tellAll (p : Plant α) (tracker : String) (observers : List Observer) (event : Event α) :
    (p.tellAll tracker observers event).signals = p.signals :=
  signals_of_apart_nil (p.apart_tellAll [] tracker observers event)

theorem processesOf_of_fixtures {p p' : Plant α} (h : p'.fixtures = p.fixtures) (numbers : List Nat) :
    p'.processesOf numbers = p.processesOf numbers := by
  rw [processesOf, show p'.processes = p.processes from congrArg Prod.snd h, processesOf]

/-- Whether all of some numbers stand for processes of the plant. -/
def Holds (p : Plant α) (numbers : List Nat) : Prop := ∀ number ∈ numbers, ∃ q, p.processes.get? number = some q

theorem Holds.of_fixtures {p p' : Plant α} {numbers : List Nat} (hholds : p.Holds numbers)
    (h : p'.fixtures = p.fixtures) : p'.Holds numbers := by
  have hprocesses : p'.processes = p.processes := congrArg Prod.snd h
  unfold Holds
  rwa [hprocesses]

end Plant

namespace Tracker

variable {α : Type}

/-- Tags of the monitors in the active range. -/
def monitorTags (t : Tracker α) : List Nat := (t.range.map Range.monitorTags).getD []

theorem requireRange_of_range {t : Tracker α} {r : Range α} (h : t.range = some r) : t.requireRange = .ok r := by
  rw [requireRange, h]

theorem range_of_requireRange {t : Tracker α} {r : Range α} (h : t.requireRange = .ok r) : t.range = some r := by
  unfold requireRange at h
  split at h
  · next hrange => rw [hrange, Except.ok.inj h]
  · cases h

end Tracker

namespace Ride

variable {α : Type} [Scalar α]

/-! ### Rides -/

omit [Scalar α] in
theorem keeps_unread_onPass {ε β : Type} {a : Action ε (Pass α) β} {tags : List Nat}
    (ha : a.Keeps fun pass => pass.signals.apart tags) : (onPass a).Keeps fun ride => ride.plant.unread tags := by
  intro ride
  have hsignals := ha ⟨ride.bunch, ride.plant.signals⟩
  exact congrArg (fun signals => { ride.plant with signals, notes := [] }) hsignals

omit [Scalar α] in
theorem keeps_unread_noteAll (tags : List Nat) (notes : List (Note α)) :
    (noteAll notes).Keeps fun ride => ride.plant.unread tags :=
  Action.keeps_update fun ride => Plant.unread_of_unlogged (ride.plant.unlogged_noteAll notes) tags

omit [Scalar α] in
theorem keeps_apart_tellAll (tags : List Nat) (t : Tracker α) (event : Ride α → Event α) :
    (tellAll t event).Keeps fun ride => ride.plant.apart tags :=
  Action.keeps_update fun ride => ride.plant.apart_tellAll tags t.name t.observers (event ride)

theorem keeps_unread_throughElement (t : Tracker α) {e : Element α} {tags : List Nat}
    (h : e.isMonitor = true → e.tag ∈ tags) : (throughElement t e).Keeps fun ride => ride.plant.unread tags := by
  refine (Action.keeps_ask _).bind fun processes => ?_
  refine (keeps_unread_onPass (Pass.keeps_apart_throughElement processes h)).outcome.bind fun result => ?_
  cases result with
  | ok _ => exact Action.keeps_pure _
  | error fault => exact (keeps_unread_noteAll tags _).bind fun _ => Action.keeps_throw _

theorem keeps_fixtures_throughElement (t : Tracker α) (e : Element α) :
    (throughElement t e).Keeps fun ride => ride.plant.fixtures := by
  have hkeeps := keeps_unread_throughElement t fun _ : e.isMonitor = true => List.mem_singleton_self e.tag
  exact hkeeps.of_view fun _ _ h => Plant.fixtures_of_apart (Plant.apart_of_unread h)

theorem keeps_apart_track (t : Tracker α) : (track t).Keeps fun ride => ride.plant.apart t.monitorTags := by
  refine Action.keeps_lift_bind fun r hr => ?_
  have htags : ∀ e ∈ r.elements, e.isMonitor = true → e.tag ∈ t.monitorTags := by
    intro e he hmonitor
    rw [Tracker.monitorTags, Tracker.range_of_requireRange hr]
    exact Element.tag_mem_monitorTags he hmonitor
  refine (Action.keeps_ask _).bind fun journey => ?_
  refine (keeps_apart_tellAll _ t _).bind fun _ => ?_
  refine (Action.keeps_ask _).bind fun processes => ?_
  have hline := keeps_unread_onPass (Pass.keeps_apart_throughLine processes r.first htags)
  refine (hline.of_view fun _ _ => Plant.apart_of_unread).outcome.bind fun result => ?_
  cases result with
  | ok _ => exact keeps_apart_tellAll _ t _
  | error failure =>
    refine ((keeps_unread_noteAll _ _).of_view fun _ _ => Plant.apart_of_unread).bind fun _ => ?_
    exact (keeps_apart_tellAll _ t _).bind fun _ => Action.keeps_throw _

theorem keeps_fixtures_track (t : Tracker α) : (track t).Keeps fun ride => ride.plant.fixtures :=
  (keeps_apart_track t).of_view fun _ _ => Plant.fixtures_of_apart

theorem reach_track {t : Tracker α} {r : Range α} (hrange : t.range = some r) (b : Bunch α) (plant : Plant α) :
    Ride.bunch <$> (track t).reach ⟨b, plant⟩ = r.transport (plant.processesOf t.processes) plant.signals b := by
  have hfixtures := Plant.fixtures_of_apart
    (plant.apart_tellAll [] t.name t.observers (.start ⟨t.name, r.span, b.size⟩))
  unfold track
  simp only [Tracker.requireRange, hrange, Action.reach_lift_bind, Action.reach_ask_bind, Action.reach_outcome_bind,
    tellAll, Action.reach_update_bind, onPass, Action.run_focus]
  change Ride.bunch <$> Action.reach _ _ = _
  rw [Plant.processesOf_of_fixtures hfixtures]
  generalize plant.tellAll t.name t.observers (.start ⟨t.name, r.span, b.size⟩) = started at hfixtures ⊢
  have hline := Pass.reach_throughLine (plant.processesOf t.processes) started.signals r.first r.elements b
  rw [Pass.along_congr_strengths _ (congrArg Prod.fst hfixtures)] at hline
  rw [Range.transport, ← hline]
  rcases hrun : (Pass.throughLine (plant.processesOf t.processes) r.first r.elements).run ⟨b, started.signals⟩ with
    ⟨⟨index, fault⟩ | _, pass⟩
  · rw [Action.reach_of_error hrun]
    rfl
  · rw [Action.reach_of_ok hrun]
    rfl

/-- A ride that gets through has passed its range between the telling of a start and that of a completion. -/
theorem pass_of_track {t : Tracker α} {r : Range α} (hrange : t.range = some r) {b : Bunch α} {plant : Plant α}
    {ride : Ride α} (h : (track t).run ⟨b, plant⟩ = (.ok (), ride)) :
    ∃ signals, (Pass.throughLine (plant.processesOf t.processes) r.first r.elements).reach ⟨b, plant.signals⟩ =
        .ok ⟨ride.bunch, signals⟩ ∧
      ride.plant = Plant.tellAll
        { plant.tellAll t.name t.observers (.start ⟨t.name, r.span, b.size⟩) with signals } t.name t.observers
        (.complete ⟨t.name, r.span, b.size⟩ ride.bunch.momentum) := by
  have hfixtures := Plant.fixtures_of_apart
    (plant.apart_tellAll [] t.name t.observers (.start ⟨t.name, r.span, b.size⟩))
  have hsignals := plant.signals_tellAll t.name t.observers (.start ⟨t.name, r.span, b.size⟩)
  have hreach := Action.reach_of_ok h
  unfold track at hreach
  simp only [Tracker.requireRange, hrange, Action.reach_lift_bind, Action.reach_ask_bind, Action.reach_outcome_bind,
    tellAll, Action.reach_update_bind, onPass, Action.run_focus] at hreach
  change Action.reach _ _ = _ at hreach
  rw [Plant.processesOf_of_fixtures hfixtures, hsignals] at hreach
  rcases hrun : (Pass.throughLine (plant.processesOf t.processes) r.first r.elements).run ⟨b, plant.signals⟩ with
    ⟨⟨index, fault⟩ | _, pass⟩
  · rw [hrun] at hreach
    cases hreach
  · rw [hrun] at hreach
    obtain rfl := Except.ok.inj hreach
    exact ⟨pass.signals, Action.reach_of_ok hrun, rfl⟩

end Ride

namespace Station

variable {α : Type}

/-! ### Stations -/

/-- The fixtures of the plant and the attachments of the tracker. -/
def setup (s : Station α) : (Table Nat α × Table Nat (BeamProcess α)) × List Nat :=
  (s.plant.fixtures, s.tracker.processes)

/-- What decides where tracking takes a bunch: the strengths of elements and the processes that act. -/
def regime (s : Station α) : Table Nat α × List (BeamProcess α) :=
  (s.plant.signals.strengths, s.plant.processesOf s.tracker.processes)

/-- The tracker, and all of the plant that a ride through its range leaves alone. -/
def surroundings (s : Station α) : Tracker α × Plant α := (s.tracker, s.plant.apart s.tracker.monitorTags)

theorem surroundings_eq {s s' : Station α} (htracker : s'.tracker = s.tracker)
    (hplant : s'.plant.apart s.tracker.monitorTags = s.plant.apart s.tracker.monitorTags) :
    s'.surroundings = s.surroundings := by
  rw [surroundings, htracker, hplant, surroundings]

theorem tracker_of_surroundings {s s' : Station α} (h : s'.surroundings = s.surroundings) : s'.tracker = s.tracker :=
  congrArg Prod.fst h

theorem apart_of_surroundings {s s' : Station α} (h : s'.surroundings = s.surroundings) :
    s'.plant.apart s.tracker.monitorTags = s.plant.apart s.tracker.monitorTags := by
  have hplant : s'.plant.apart s'.tracker.monitorTags = s.plant.apart s.tracker.monitorTags := congrArg Prod.snd h
  rwa [tracker_of_surroundings h] at hplant

theorem setup_of_surroundings {s s' : Station α} (h : s'.surroundings = s.surroundings) : s'.setup = s.setup := by
  rw [setup, Plant.fixtures_of_apart (apart_of_surroundings h), tracker_of_surroundings h, setup]

theorem regime_of_setup {s s' : Station α} (h : s'.setup = s.setup) : s'.regime = s.regime := by
  obtain ⟨hfixtures, hprocesses⟩ := Prod.ext_iff.mp h
  simp only [setup] at hfixtures hprocesses
  have hstrengths : s'.plant.signals.strengths = s.plant.signals.strengths := congrArg Prod.fst hfixtures
  rw [regime, Plant.processesOf_of_fixtures hfixtures, hprocesses, hstrengths, regime]

theorem regime_of_fixtures {s : Station α} {p : Plant α} (h : p.fixtures = s.plant.fixtures) :
    regime { s with plant := p } = s.regime :=
  regime_of_setup (Prod.ext h rfl)

/-- A view of stations that work on bunches has no hand in: it sees of the plant no more than the fixtures, and of the
tracker no more than what is attached to it. -/
structure Steady {τ : Type} (view : Station α → τ) : Prop where
  plant : ∀ {s : Station α} {p : Plant α}, p.fixtures = s.plant.fixtures → view { s with plant := p } = view s
  tracker : ∀ {s : Station α} {t : Tracker α}, t.processes = s.tracker.processes →
    t.observers = s.tracker.observers → view { s with tracker := t } = view s

theorem steady_regime : Steady (regime : Station α → _) where
  plant := regime_of_fixtures
  tracker h _ := regime_of_setup (Prod.ext rfl h)

def observers (s : Station α) : List Observer := s.tracker.observers

theorem steady_observers : Steady (observers : Station α → _) where
  plant _ := rfl
  tracker _ h := h

variable {τ : Type} {view : Station α → τ}

theorem keeps_onTracker (h : Steady view) {f : Tracker α → Tracker α} (hprocesses : ∀ t, (f t).processes = t.processes)
    (hobservers : ∀ t, (f t).observers = t.observers) : (onTracker (Action.update f)).Keeps view :=
  fun s => h.tracker (hprocesses s.tracker) (hobservers s.tracker)

theorem keeps_onPlant (h : Steady view) {f : Plant α → Plant α} (hf : ∀ p, (f p).fixtures = p.fixtures) :
    (onPlant (Action.update f)).Keeps view :=
  fun s => h.plant (hf s.plant)

theorem keeps_surroundings_onPlant {f : Plant α → Plant α} (h : ∀ p tags, (f p).apart tags = p.apart tags) :
    (onPlant (Action.update f)).Keeps surroundings :=
  fun s => surroundings_eq rfl (h s.plant s.tracker.monitorTags)

theorem keeps_note (h : Steady view) (n : TrackerNote) : (note n : Action Fault (Station α) Unit).Keeps view :=
  fun s => h.plant (s.plant.fixtures_note _)

theorem keeps_setRange (h : Steady view) (r : Range α) : (setRange r).Keeps view := by
  refine Action.Keeps.bind ?_ fun _ => keeps_note h _
  exact keeps_onTracker h (fun _ => rfl) fun _ => rfl

theorem keeps_setInitial (h : Steady view) (initial : InitialBunch α) : (setInitial initial).Keeps view :=
  keeps_onTracker h (fun _ => rfl) fun _ => rfl

theorem run_attach (number : Nat) (s : Station α) :
    ∃ s', (attach number).run s = (.ok (), s') ∧ s'.plant.unlogged = s.plant.unlogged ∧
      s'.tracker = { s.tracker with processes := s.tracker.processes ++ [number] } :=
  ⟨_, rfl, Plant.unlogged_note _ _, rfl⟩

theorem keeps_initStepper (h : Steady view) (bunch : Nat) :
    (initStepper bunch : Action Fault (Station α) Unit).Keeps view := by
  refine Action.keeps_get.bind fun s => ?_
  refine (Action.keeps_lift _).bind fun r => ?_
  exact keeps_onTracker h (fun _ => rfl) fun _ => rfl

variable [Scalar α]

omit [Scalar α] in
theorem keeps_ride (h : Steady view) {β : Type} (b : Bunch α) {a : Tracker α → Action Fault (Ride α) β}
    (ha : ∀ t, (a t).Keeps fun ride => ride.plant.fixtures) : (ride b a).Keeps view :=
  fun s => h.plant (ha s.tracker ⟨b, s.plant⟩)

theorem keeps_surroundings_trackBunch (b : Bunch α) : (trackBunch b).Keeps surroundings :=
  fun s => surroundings_eq rfl (Ride.keeps_apart_track s.tracker ⟨b, s.plant⟩)

theorem keeps_trackBunch (h : Steady view) (b : Bunch α) : (trackBunch b).Keeps view :=
  keeps_ride h b Ride.keeps_fixtures_track

omit [Scalar α] in
/-- A shared bunch is looked up, taken on a ride and put back. -/
theorem keeps_rideShared_of {β : Type} {a : Tracker α → Action Fault (Ride α) β} (hride : ∀ b, (ride b a).Keeps view)
    (number : Nat)
    (hput : ∀ b, (onPlant (Action.update fun p =>
      { p with bunches := p.bunches.insert number (.table b) })).Keeps view) : (rideShared number a).Keeps view := by
  refine Action.keeps_get.bind fun s => ?_
  cases s.plant.bunches.get? number with
  | none => exact Action.keeps_throw _
  | some load =>
    refine (Action.keeps_lift _).bind fun b => ?_
    refine (hride b).bind fun tracked => ?_
    exact (hput tracked.2).bind fun _ => Action.keeps_lift _

omit [Scalar α] in
theorem keeps_rideShared (h : Steady view) {β : Type} (number : Nat) {a : Tracker α → Action Fault (Ride α) β}
    (ha : ∀ t, (a t).Keeps fun ride => ride.plant.fixtures) : (rideShared number a).Keeps view :=
  keeps_rideShared_of (fun b => keeps_ride h b ha) number fun _ => keeps_onPlant h fun _ => rfl

theorem keeps_step (h : Steady view) : (step : Action Fault (Station α) Bool).Keeps view := by
  refine Action.keeps_get.bind fun s => ?_
  refine (Action.keeps_lift _).bind fun e => ?_
  refine (Action.keeps_lift _).bind fun bunch => ?_
  refine (keeps_rideShared h bunch fun t => Ride.keeps_fixtures_throughElement t e).bind fun _ => ?_
  refine Action.Keeps.bind ?_ fun _ => Action.keeps_ask _
  exact keeps_onTracker h (fun _ => rfl) fun _ => rfl

/-- A copy of the initial bunch is looked up and tracked. -/
theorem keeps_trackCopy_of (h : ∀ b, (trackBunch b).Keeps view) :
    (trackCopy : Action Fault (Station α) (Bunch α)).Keeps view := by
  have hload (load : Load α) :
      (do
        let load ← Action.lift load.copy
        let b ← Action.lift load.bunch
        let tracked ← trackBunch b
        Action.lift tracked.1
        pure tracked.2 : Action Fault (Station α) (Bunch α)).Keeps view := by
    refine (Action.keeps_lift _).bind fun load => ?_
    refine (Action.keeps_lift _).bind fun b => ?_
    refine (h b).bind fun tracked => ?_
    exact (Action.keeps_lift _).bind fun _ => Action.keeps_pure _
  refine Action.keeps_get.bind fun s => ?_
  cases s.tracker.initial with
  | none => exact (Action.keeps_throw _).bind hload
  | some initial =>
    cases initial with
    | own load => exact (Action.keeps_pure load).bind hload
    | shared number =>
      dsimp only
      cases s.plant.bunches.get? number with
      | none => exact (Action.keeps_throw _).bind hload
      | some load => exact (Action.keeps_pure load).bind hload

theorem keeps_trackCopy (h : Steady view) : (trackCopy : Action Fault (Station α) (Bunch α)).Keeps view :=
  keeps_trackCopy_of (keeps_trackBunch h)

def transport (s : Station α) (r : Range α) : Bunch α → Except Fault (Bunch α) :=
  r.transport (s.plant.processesOf s.tracker.processes) s.plant.signals

theorem transport_of_regime {s s' : Station α} (h : s'.regime = s.regime) : s'.transport = s.transport := by
  obtain ⟨hstrengths, hprocesses⟩ := Prod.ext_iff.mp h
  simp only [regime] at hstrengths hprocesses
  funext r
  rw [transport, transport, hprocesses]
  exact Range.transport_congr_strengths _ hstrengths r

theorem transport_of_surroundings {s s' : Station α} (h : s'.surroundings = s.surroundings) :
    s'.transport = s.transport :=
  transport_of_regime (regime_of_setup (setup_of_surroundings h))

theorem run_trackBunch (s : Station α) (b : Bunch α) :
    (trackBunch b).run s =
      (.ok (((Ride.track s.tracker).run ⟨b, s.plant⟩).1, ((Ride.track s.tracker).run ⟨b, s.plant⟩).2.bunch),
        { s with plant := ((Ride.track s.tracker).run ⟨b, s.plant⟩).2.plant }) := rfl

theorem outcome_trackBunch {s : Station α} {r : Range α} (hrange : s.tracker.range = some r) (b : Bunch α) :
    ((do
      let (result, b) ← trackBunch b
      Action.lift result
      pure b : Action Fault (Station α) (Bunch α)).run s).1 = s.transport r b := by
  rw [transport, ← Ride.reach_track hrange b s.plant, Action.run_bind_of_ok (run_trackBunch s b)]
  rcases hrun : (Ride.track s.tracker).run ⟨b, s.plant⟩ with ⟨fault | _, ride⟩
  · rw [Action.reach_of_error hrun]
    rfl
  · rw [Action.reach_of_ok hrun]
    rfl

theorem run_trackBunch_of_transport {s : Station α} {r : Range α} (hrange : s.tracker.range = some r) {b b' : Bunch α}
    (h : s.transport r b = .ok b') :
    ∃ s', (trackBunch b).run s = (.ok (.ok (), b'), s') := by
  refine ⟨((trackBunch b).run s).2, ?_⟩
  rw [transport, ← Ride.reach_track hrange b s.plant] at h
  rw [run_trackBunch]
  rcases hrun : (Ride.track s.tracker).run ⟨b, s.plant⟩ with ⟨fault | _, ride⟩
  · rw [Action.reach_of_error hrun] at h
    cases h
  · rw [Action.reach_of_ok hrun] at h
    obtain rfl := Except.ok.inj h
    rfl

theorem outcome_trackCopy {s : Station α} {r : Range α} {b : Bunch α} (hrange : s.tracker.range = some r)
    (hinitial : s.tracker.initial = some (.own (.table b))) :
    (trackCopy.run s).1 = (do let b ← b.copy; s.transport r b) := by
  unfold trackCopy
  rw [Action.run_get_bind]
  simp only [hinitial, Load.copy, pure_bind]
  cases b.copy with
  | error fault => rfl
  | ok b => exact outcome_trackBunch hrange b

end Station

end BeamOptics
