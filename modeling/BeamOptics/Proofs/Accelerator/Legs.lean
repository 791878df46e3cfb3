import BeamOptics.Proofs.Accelerator.TrackState
import BeamOptics.Proofs.Tracking.Journeys

/-!
# The legs of a call

A successful call tracks a gap, if there is one, and then the segment. What it leaves at the station, in readings and
on record, is put together from what each of these legs leaves.
-/

namespace BeamOptics

namespace Station

variable {α : Type} [Scalar α]

/-- A copy that gets through has made a ride. -/
theorem ride_of_trackCopy {s s' : Station α} {b b' : Bunch α} (hinitial : s.tracker.initial = some (.own (.table b)))
    (h : trackCopy.run s = (.ok b', s')) :
    ∃ plant, (Ride.track s.tracker).run ⟨b, s.plant⟩ = (.ok (), ⟨b', plant⟩) ∧ s' = { s with plant } := by
  unfold trackCopy at h
  rw [Action.run_get_bind] at h
  simp only [hinitial, Load.copy, pure_bind] at h
  obtain ⟨load, hcopy, h⟩ := Action.exists_of_run_lift_bind h
  obtain ⟨copied, hcopied, hload⟩ := bind_eq_ok_iff.mp hcopy
  obtain ⟨-, rfl⟩ := Bunch.copy_eq_ok_iff.mp hcopied
  obtain rfl := Except.ok.inj hload
  obtain ⟨_, hbunch, h⟩ := Action.exists_of_run_lift_bind h
  obtain rfl := Except.ok.inj hbunch
  rw [Action.run_bind_of_ok (run_trackBunch s copied)] at h
  obtain ⟨_, hresult, h⟩ := Action.exists_of_run_lift_bind h
  obtain ⟨hbunch, hstation⟩ := Prod.ext_iff.mp h
  obtain rfl := Except.ok.inj hbunch
  exact ⟨_, Prod.ext hresult rfl, hstation.symm⟩

end Station

namespace Rig

variable {α : Type}

/-! ### What legs leave -/

/-- What tracking through some ranges, one after the other, leaves of a rig. -/
structure Tracks (rig : Rig α) (legs : List (Range α)) (rig' : Rig α) : Prop where
  regime : rig'.regime = rig.regime
  observers : rig'.tracker.observers = rig.tracker.observers
  journeys : ∀ k, rig'.plant.journeys k = rig.plant.journeys k ++
    legs.flatMap fun r => List.replicate (rig.tracker.observers.count (.recorder k)) r.span
  apart : ∀ tags, (∀ r ∈ legs, r.monitorTags ⊆ tags) →
    rig'.plant.signals.apart tags = rig.plant.signals.apart tags

/-- The tracker, and the plant but for its log. -/
def scene (rig : Rig α) : Tracker α × Plant α := (rig.tracker, rig.plant.unlogged)

namespace Tracks

variable {rig rig₁ rig₂ : Rig α}

theorem of_scene (h : rig₁.scene = rig.scene) : rig.Tracks [] rig₁ := by
  obtain ⟨htracker, hplant⟩ := Prod.ext_iff.mp h
  simp only [scene] at htracker hplant
  have hrecords : rig₁.plant.records = rig.plant.records := (congrArg Plant.records hplant :)
  have hsignals : rig₁.plant.signals = rig.plant.signals := (congrArg Plant.signals hplant :)
  refine ⟨?_, by rw [htracker], fun k => ?_, fun tags _ => by rw [hsignals]⟩
  · exact Station.regime_of_setup (s := ⟨rig.tracker, rig.plant⟩)
      (Prod.ext (Plant.fixtures_of_unlogged hplant) (congrArg Tracker.processes htracker))
  · rw [Plant.journeys_of_records hrecords, List.flatMap_nil, List.append_nil]

theorem trans {legs legs' : List (Range α)} (h : rig.Tracks legs rig₁) (h' : rig₁.Tracks legs' rig₂) :
    rig.Tracks (legs ++ legs') rig₂ where
  regime := h'.regime.trans h.regime
  observers := h'.observers.trans h.observers
  journeys k := by rw [h'.journeys, h.journeys, h.observers, List.append_assoc, List.flatMap_append]
  apart tags htags := by
    have hfirst := h.apart tags fun r hr => htags r (List.mem_append_left legs' hr)
    exact (h'.apart tags fun r hr => htags r (List.mem_append_right legs hr)).trans hfirst

/-- Elements that are in none of the legs read as before. -/
theorem reading_eq [Scalar α] {legs : List (Range α)} (h : rig.Tracks legs rig₁) {e : Element α}
    (houtside : ∀ r ∈ legs, e.tag ∉ r.monitorTags) :
    rig₁.plant.signals.reading e = rig.plant.signals.reading e := by
  have hkept := h.apart (legs.flatMap Range.monitorTags) fun r hr tag htag => List.mem_flatMap.mpr ⟨r, hr, htag⟩
  refine Signals.reading_congr hkept fun htag => ?_
  obtain ⟨r, hr, htag⟩ := List.mem_flatMap.mp htag
  exact houtside r hr htag

end Tracks

/-! ### One leg -/

theorem keeps_scene_note (n : AcceleratorNote α) : (note n).Keeps scene := by
  intro rig
  exact Prod.ext rfl (rig.plant.unlogged_note _)

theorem keeps_scene_putEntry (n : Nat) (entry : CachedBunch α) : (putEntry n entry).Keeps scene := fun _ => rfl

variable [Scalar α]

theorem ride_of_trackFrom {rig rig' : Rig α} {r : Range α} {b b' : Bunch α}
    (h : (trackFrom r b).run rig = (.ok b', rig')) :
    ∃ t n, t.range = some r ∧ t.processes = rig.tracker.processes ∧ t.observers = rig.tracker.observers ∧
      rig'.tracker = t ∧ (Ride.track t).run ⟨b, rig.plant.note n⟩ = (.ok (), ⟨b', rig'.plant⟩) := by
  let t : Tracker α := { rig.tracker with range := some r, stepper := none, initial := some (.own (.table b)) }
  have hcopy : Station.trackCopy.run ⟨t, rig.plant.note (.tracker rig.tracker.name (.rangeSet r.span))⟩ =
      (.ok b', ⟨rig'.tracker, rig'.plant⟩) := by
    obtain ⟨hbunch, hrig⟩ := Prod.ext_iff.mp h
    exact Prod.ext hbunch (congrArg (fun rig : Rig α => Station.mk rig.tracker rig.plant) hrig)
  obtain ⟨plant, hride, hstation⟩ := Station.ride_of_trackCopy rfl hcopy
  obtain ⟨htracker, rfl⟩ := Station.mk.inj hstation
  exact ⟨t, _, rfl, rfl, rfl, htracker, hride⟩

/-- A leg that gets through has passed its range with the processes and the signals at hand. -/
theorem pass_of_trackFrom {rig rig' : Rig α} {r : Range α} {b b' : Bunch α}
    (h : (trackFrom r b).run rig = (.ok b', rig')) :
    (Pass.throughLine (rig.plant.processesOf rig.tracker.processes) r.first r.elements).reach
      ⟨b, rig.plant.signals⟩ = .ok ⟨b', rig'.plant.signals⟩ := by
  obtain ⟨t, n, hrange, hprocesses, -, -, hride⟩ := ride_of_trackFrom h
  obtain ⟨signals, hpass, hplant⟩ := Ride.pass_of_track hrange hride
  rw [Plant.processesOf_of_fixtures (rig.plant.fixtures_note n), Plant.signals_note, hprocesses] at hpass
  rw [hpass, show rig'.plant.signals = signals from (congrArg Plant.signals hplant).trans (Plant.signals_tellAll ..)]

theorem tracks_of_trackFrom {rig rig' : Rig α} {r : Range α} {b b' : Bunch α}
    (h : (trackFrom r b).run rig = (.ok b', rig')) : rig.Tracks [r] rig' := by
  have hregime := keeps_trackFrom Station.steady_regime r b rig
  have hpass := pass_of_trackFrom h
  obtain ⟨t, n, hrange, -, hobservers, htracker, hride⟩ := ride_of_trackFrom h
  obtain ⟨signals, -, hplant⟩ := Ride.pass_of_track hrange hride
  rw [h] at hregime
  refine ⟨hregime, by rw [htracker, hobservers], fun k => ?_, fun tags htags => ?_⟩
  · have hjourneys := congrFun (congrArg Plant.journeys hplant) k
    rw [Plant.journeys_tellAll_of_none _ _ _ rfl] at hjourneys
    refine hjourneys.trans ?_
    refine (Plant.journeys_tellAll_start (rig.plant.note n) t.name t.observers ⟨t.name, r.span, b.size⟩ k).trans ?_
    rw [Plant.journeys_note, hobservers, List.flatMap_singleton]
  · have hkept := Pass.keeps_apart_throughLine (rig.plant.processesOf rig.tracker.processes) r.first
      fun e he hmonitor => htags r List.mem_cons_self (Element.tag_mem_monitorTags he hmonitor)
    exact hkept.of_reach hpass

/-! ### Calls -/

omit [Scalar α] in
/-- The gap that has to be tracked to bring an entry before an index, if there is one. -/
def gapLegs (m : Model α) (entry : CachedBunch α) (first : Nat) : List (Range α) :=
  if (entry.base first).isAt first then [] else [m.part (entry.base first).next first]

omit [Scalar α] in
/-- The last leg of a call, which ends with the segment. -/
def lastLeg (rig : Rig α) (m : Model α) (s : Segment) : Range α :=
  m.part (if rig.accelerator.incremental then s.first else 0) (s.last + 1)

omit [Scalar α] in
/-- The ranges that a call tracks, in order. -/
def legs (rig : Rig α) (m : Model α) (entry : CachedBunch α) (s : Segment) : List (Range α) :=
  (if rig.accelerator.incremental then gapLegs m entry s.first else []) ++ [rig.lastLeg m s]

omit [Scalar α] in
theorem first_lastLeg_le (rig : Rig α) (m : Model α) (s : Segment) : (rig.lastLeg m s).first ≤ s.first := by
  unfold lastLeg
  split
  · exact Nat.le_refl s.first
  · exact Nat.zero_le s.first

omit [Scalar α] in
theorem exists_part_of_mem_legs {rig : Rig α} {m : Model α} {entry : CachedBunch α} {s : Segment} {r : Range α}
    (h : r ∈ rig.legs m entry s) : ∃ first stop, r = m.part first stop := by
  rcases List.mem_append.mp h with hgap | hlast
  · split at hgap
    · unfold gapLegs at hgap
      split at hgap
      · cases hgap
      · exact ⟨_, _, List.mem_singleton.mp hgap⟩
    · cases hgap
  · exact ⟨_, _, List.mem_singleton.mp hlast⟩

/-- The bunch that the last leg of a call starts with. -/
def source (rig : Rig α) (m : Model α) (entry : CachedBunch α) (s : Segment) : Except Fault (Bunch α) :=
  if rig.accelerator.incremental then CachedBunch.bunch <$> rig.brought m entry s.first else .ok entry.initial

theorem tracks_of_advance {rig rig' : Rig α} {m : Model α} {n : Nat} {entry entry' : CachedBunch α}
    (hentry : rig.accelerator.cache[n]? = some entry) (hinitial : entry.initial.copy = .ok entry.initial)
    {state : String} {s : Segment} (hlast : s.last < m.length)
    (h : (advance m n entry state s).run rig = (.ok entry', rig')) : rig.Tracks (gapLegs m entry s.first) rig' := by
  have hordered := s.ordered
  have hnext := entry.next_base_le s.first
  obtain ⟨rig₁, hrun₁, -, -⟩ := run_rewind hentry hinitial state s
  have hscene₁ := (keeps_rewind keeps_scene_note keeps_scene_putEntry n entry state s).of_run hrun₁
  rw [advance, Action.run_bind_of_ok hrun₁] at h
  unfold gapLegs
  by_cases hat : (entry.base s.first).isAt s.first
  · rw [if_pos (by simp [hat])] at h
    rw [if_pos hat]
    exact .of_scene (((Action.keeps_pure _).of_run h).trans hscene₁)
  · have hne : (entry.base s.first).next ≠ s.first := by simpa [CachedBunch.isAt] using hat
    have horigin : s.startsAtOrigin = false := by
      rw [Segment.startsAtOrigin, beq_eq_false_iff_ne]
      omega
    have hgap : m.subrange (entry.base s.first).next ((s.first : Int) - 1) =
        .ok (m.part (entry.base s.first).next s.first) := Model.subrange_pred_eq_part (by omega) (by omega)
    rw [if_neg (by simp [hat, horigin]), hgap] at h
    obtain ⟨_, rig₂, hrun₂, h⟩ := Action.exists_of_run_bind h
    obtain ⟨gap, hok, h⟩ := Action.exists_of_run_lift_bind h
    obtain rfl := Except.ok.inj hok
    obtain ⟨b, rig₃, hrun₃, h⟩ := Action.exists_of_run_bind h
    have hscene₂ := (keeps_scene_note _).of_run hrun₂
    have hscene₃ := ((keeps_scene_putEntry n _).bind fun _ => Action.keeps_pure _).of_run h
    have hlegs := (Tracks.of_scene (hscene₂.trans hscene₁)).trans (tracks_of_trackFrom hrun₃)
    rw [if_neg hat]
    exact hlegs.trans (.of_scene hscene₃)

theorem tracks_of_finish {rig rig' : Rig α} {m : Model α} {first last : Nat} (hordered : first ≤ last)
    (hlast : last < m.length) {source b : Bunch α}
    (h : (do
      let r ← Action.lift (m.subrange first last)
      let b ← trackFrom r source
      note (.finalMomentum b.momentum)
      pure b : Action Fault (Rig α) (Bunch α)).run rig = (.ok b, rig')) :
    rig.Tracks [m.part first (last + 1)] rig' ∧
      (Pass.throughLine (rig.plant.processesOf rig.tracker.processes) first
        (m.part first (last + 1)).elements).reach ⟨source, rig.plant.signals⟩ = .ok ⟨b, rig'.plant.signals⟩ := by
  rw [Model.subrange_eq_part hordered hlast, Action.run_bind_of_ok (Action.run_lift _ _)] at h
  obtain ⟨b', rig₁, hrun₁, h⟩ := Action.exists_of_run_bind h
  obtain ⟨_, rig₂, hrun₂, h⟩ := Action.exists_of_run_bind h
  obtain ⟨hbunch, rfl⟩ := Prod.ext_iff.mp h
  obtain rfl := Except.ok.inj hbunch
  have hscene₂ := (keeps_scene_note _).of_run hrun₂
  have hsignals : rig₂.plant.signals = rig₁.plant.signals := (congrArg (fun scene => scene.2.signals) hscene₂ :)
  refine ⟨(tracks_of_trackFrom hrun₁).trans (.of_scene hscene₂), ?_⟩
  rw [Action.run_pure, hsignals]
  exact pass_of_trackFrom hrun₁

/-- A successful call tracks its legs. The last one starts with the bunch of the entry that was brought before it, and
passes its range with the processes and strengths at hand. -/
theorem legs_of_trackState {rig rig' : Rig α} {m : Model α} {argument : SegmentArgument} {s : Segment}
    (hresolve : rig.accelerator.resolve m argument = .ok s) (hlast : s.last < m.length) {state : Datum} {n : Nat}
    {entry : CachedBunch α} (hentry : rig.accelerator.entry state = .ok (n, entry))
    (hinitial : entry.initial.copy = .ok entry.initial) {b : Bunch α}
    (h : (trackState m state argument).run rig = (.ok b, rig')) :
    rig.Tracks (rig.legs m entry s) rig' ∧
      ∃ source signals, rig.source m entry s = .ok source ∧ signals.strengths = rig.plant.signals.strengths ∧
        (Pass.throughLine (rig.plant.processesOf rig.tracker.processes) (rig.lastLeg m s).first
          (rig.lastLeg m s).elements).reach ⟨source, signals⟩ = .ok ⟨b, rig'.plant.signals⟩ := by
  have hcached := getElem?_of_entry hentry
  rw [trackState, Action.run_bind_of_ok (Action.run_ask _ _), hresolve,
    Action.run_bind_of_ok (Action.run_lift _ _), hentry, Action.run_bind_of_ok (Action.run_lift _ _)] at h
  dsimp only at h
  obtain ⟨_, rig₁, hrun₁, h⟩ := Action.exists_of_run_bind h
  have htracks₁ := Tracks.of_scene ((keeps_scene_note _).of_run hrun₁)
  have haccelerator₁ := (keeps_accelerator_note _).of_run hrun₁
  have hsettings {legs : List (Range α)} {rig₂ : Rig α} (h : rig.Tracks legs rig₂) :
      rig₂.plant.signals.strengths = rig.plant.signals.strengths ∧
        rig₂.plant.processesOf rig₂.tracker.processes = rig.plant.processesOf rig.tracker.processes :=
    Prod.ext_iff.mp h.regime
  unfold legs source lastLeg
  by_cases hincremental : rig.accelerator.incremental
  · simp only [if_pos hincremental] at h ⊢
    rw [← haccelerator₁] at hcached
    obtain ⟨entry', rig₂, hrun₂, h⟩ := Action.exists_of_run_bind h
    obtain ⟨_, hbrought, -, -⟩ := run_advance hcached hinitial state.display hlast
    have hentry' : rig₁.brought m entry s.first = .ok entry' := congrArg Prod.fst (hbrought.symm.trans hrun₂)
    have htracks₂ := htracks₁.trans (tracks_of_advance hcached hinitial hlast hrun₂)
    obtain ⟨htracks, hpass⟩ := tracks_of_finish s.ordered hlast h
    obtain ⟨hstrengths, hprocesses⟩ := hsettings htracks₂
    rw [hprocesses] at hpass
    rw [brought_of_regime htracks₁.regime] at hentry'
    exact ⟨htracks₂.trans htracks, entry'.bunch, _, by rw [hentry']; rfl, hstrengths, hpass⟩
  · simp only [if_neg hincremental] at h ⊢
    obtain ⟨htracks, hpass⟩ := tracks_of_finish (Nat.zero_le s.last) hlast h
    obtain ⟨hstrengths, hprocesses⟩ := hsettings htracks₁
    rw [hprocesses] at hpass
    exact ⟨htracks₁.trans htracks, entry.initial, _, rfl, hstrengths, hpass⟩

end Rig

end BeamOptics
