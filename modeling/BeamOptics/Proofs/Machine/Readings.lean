import BeamOptics.Proofs.Accelerator.Legs
import BeamOptics.Proofs.Machine.Tracking
import BeamOptics.Proofs.Tracking.Monitoring

/-!
# Monitors in operation

Monitors are written to by every tracking that goes past them, for whichever state. After a successful call those in
its segment read where the state of the call is, and those it has not been past read what they did.
-/

namespace BeamOptics

namespace CachedBunch.Stands

variable {α : Type} [Scalar α] {beam : ReferenceBeam α} {rig : Rig α} {m : Model α} {entry : CachedBunch α}

theorem size_initial (h : entry.Stands beam rig m) : entry.initial.size = 1 := by
  obtain ⟨-, hinitial⟩ := Bunch.make_eq_ok_iff.mp h.created
  rw [hinitial]
  rfl

/-- The last leg of a call starts where tracking from the start of the line leads. -/
theorem transport_source (h : entry.Stands beam rig m) {s : Segment} (hlast : s.last < m.length) {b : Bunch α}
    (hsource : rig.source m entry s = .ok b) :
    rig.transport (m.part 0 (rig.lastLeg m s).first) entry.initial = .ok b := by
  have hordered := s.ordered
  unfold Rig.source at hsource
  by_cases hincremental : rig.accelerator.incremental
  · have hfirst : (rig.lastLeg m s).first = s.first := if_pos hincremental
    rw [if_pos hincremental] at hsource
    cases hbrought : rig.brought m entry s.first with
    | error fault =>
      rw [hbrought] at hsource
      cases hsource
    | ok entry' =>
      rw [hbrought] at hsource
      obtain rfl := Except.ok.inj hsource
      obtain ⟨hstands, hnext, hinitial⟩ := h.brought (by omega) hbrought
      rw [hfirst, ← hnext, ← hinitial]
      exact hstands.reached
  · have hfirst : (rig.lastLeg m s).first = 0 := if_neg hincremental
    rw [if_neg hincremental] at hsource
    rw [hfirst, Model.part_self]
    exact hsource

/-- Monitors of the last leg read where the initial bunch is once it has been tracked past them. -/
theorem reads_of_lastLeg (h : entry.Stands beam rig m) (hdistinct : (m.elements.map Element.tag).Nodup) {s : Segment}
    (hlast : s.last < m.length) {source b : Bunch α} {signals signals' : Signals α}
    (hsource : rig.source m entry s = .ok source) (hstrengths : signals.strengths = rig.plant.signals.strengths)
    (hpass : (Pass.throughLine (rig.plant.processesOf rig.tracker.processes) (rig.lastLeg m s).first
      (rig.lastLeg m s).elements).reach ⟨source, signals⟩ = .ok ⟨b, signals'⟩) {i : Nat} {e : Element α}
    (hfirst : (rig.lastLeg m s).first ≤ i) (hi : i ≤ s.last) (he : m.elements[i]? = some e)
    (hmonitor : e.isMonitor = true) :
    ∃ b', rig.transport (m.part 0 (i + 1)) entry.initial = .ok b' ∧ signals'.Reads e b' := by
  have hreached := h.transport_source hlast hsource
  have hstop : i < s.last + 1 := Nat.lt_succ_of_le hi
  have hsize : source.size ≠ 0 := by
    rw [Range.view_transport Bunch.steady_size hreached, h.size_initial]
    exact Nat.one_ne_zero
  have hpart := (m.sublist_part (rig.lastLeg m s).first (s.last + 1)).map Element.tag
  obtain ⟨b', halong, hreads⟩ := Pass.reads_throughLine hpass (hdistinct.sublist hpart) hsize
    ((m.getElem?_part hfirst hstop).trans he) hmonitor
  rw [Pass.along_congr_strengths _ hstrengths] at halong
  have hend : rig.transport (m.part (rig.lastLeg m s).first (i + 1)) source = .ok b' := by
    refine mapError_eq_ok_iff.mpr ?_
    rw [← m.take_part hfirst hstop]
    exact halong
  refine ⟨b', ?_, hreads⟩
  rw [rig.transport_append m (Nat.le_succ_of_le hfirst) (by omega), hreached]
  exact hend

end CachedBunch.Stands

namespace Machine

variable {α : Type} [Scalar α]

/-- A successful call tracks some ranges, as recorders are told. Afterwards every monitor in its segment reads the
state of the call, tracked from the start of the line up to and including the monitor, and monitors outside of those
ranges, at other indexes or in no line at all, read as before. A line with distinct names, as all that are built,
repeats no element. -/
theorem monitors_follow_tracking {beam : ReferenceBeam α} {t : Machine α} (h : t.Reachable beam)
    (hdistinct : (t.line.elements.map Element.tag).Nodup) {state : Datum} {argument : SegmentArgument} {b : Bunch α}
    {rig' : Rig α} (hsuccess : (Rig.trackState t.line state argument).run t.rig = (.ok b, rig')) :
    ∃ s n entry ranges, t.rig.accelerator.resolve t.line argument = .ok s ∧
      t.rig.accelerator.entry state = .ok (n, entry) ∧ ranges = t.rig.legs t.line entry s ∧
      (∀ k, rig'.plant.journeys k = t.rig.plant.journeys k ++
        ranges.flatMap fun r => List.replicate (t.rig.tracker.observers.count (.recorder k)) r.span) ∧
      (∀ i e, s.first ≤ i → i ≤ s.last → t.line.elements[i]? = some e → e.isMonitor = true →
        ∃ b', t.direct entry (i + 1) = .ok b' ∧ rig'.plant.signals.Reads e b') ∧
      (∀ i e, t.line.elements[i]? = some e → (∀ r ∈ ranges, r.at? i = none) →
        rig'.plant.signals.reading e = t.rig.plant.signals.reading e) ∧
      ∀ e : Element α, (∀ r ∈ ranges, e.tag ∉ r.monitorTags) →
        rig'.plant.signals.reading e = t.rig.plant.signals.reading e := by
  have hsound := sound_of_reachable h
  obtain ⟨s, n, entry, hresolve, hentry⟩ := Rig.found_of_trackState hsuccess
  have hlast := hsound.last_lt hresolve
  have hstands := hsound.stands_of_entry hentry
  obtain ⟨htracks, source, signals, hsource, hstrengths, hpass⟩ :=
    Rig.legs_of_trackState hresolve hlast hentry hstands.copy_initial hsuccess
  refine ⟨s, n, entry, _, hresolve, hentry, rfl, htracks.journeys, ?_, ?_, fun e => htracks.reading_eq⟩
  · intro i e hfirst hi he hmonitor
    rw [direct_eq hstands]
    exact hstands.reads_of_lastLeg hdistinct hlast hsource hstrengths hpass
      (Nat.le_trans (t.rig.first_lastLeg_le t.line s) hfirst) hi he hmonitor
  · intro i e he hnone
    refine htracks.reading_eq fun r hr => ?_
    obtain ⟨first, stop, rfl⟩ := Rig.exists_part_of_mem_legs hr
    exact Model.tag_not_mem_part hdistinct he (hnone _ hr)

end Machine

/-! ### A line with two monitors -/

namespace SmallMachine

def early : Element Int := ⟨2, "M1", "Monitor", 0, .monitor 0 0⟩

def late : Element Int := ⟨4, "M2", "Monitor", 0, .monitor 0 0⟩

def screened : Model Int where
  name := "screened"
  elements := [⟨0, "XCor", "Corrector", 0, .corrector .x 2⟩, ⟨1, "D0", "Drift", 1, .drift⟩, early,
    ⟨3, "D1", "Drift", 1, .drift⟩, late]

/-- The machine on that line after a call that has gone past the first monitor. -/
def between : Machine Int :=
  (Command.trackState (.int 0) (.segment (spot 3))).after beam
    ((Command.initialise (.int 1)).after beam (.new "screened" screened { } { }))

theorem reachable_between : between.Reachable beam :=
  ⟨_, _, _, _, .next _ (.next _ .start trivial) trivial⟩

/-- The one state there, right before the last drift. -/
def held : CachedBunch Int := .rightBefore 3 ⟨1, 1, [⟨2, 2, 0, 0, 0, 0⟩]⟩ initial

theorem cache_between : between.cache = [held] := rfl

/-- What a call for the last element leaves there. -/
def beyond : Rig Int := ((Rig.trackState between.line (.int 0) (.segment (spot 4))).run between.rig).2

/-- The last monitor reads the state behind the last drift, and the first one what it has read before. -/
theorem monitors_follow_tracking_screened :
    between.rig.plant.signals.reading early = (2, 0) ∧ beyond.plant.signals.reading early = (2, 0) ∧
      beyond.plant.signals.reading late = (4, 0) := by
  have hbefore : between.rig.plant.signals.reading early = (2, 0) := by decide +kernel
  have hbuilt : Model.build "screened" (screened.elements.map some) [] = .ok screened := rfl
  have hdistinct := Model.nodup_tags (Model.nodup_names_of_build hbuilt) (by decide)
  obtain ⟨b, hb, -⟩ := exists_ok_of_any (show ((Rig.trackState between.line (.int 0)
    (.segment (spot 4))).run between.rig).1.toOption.any (fun _ => true) = true by decide +kernel)
  obtain ⟨s, n, entry, ranges, hresolve, hentry, rfl, -, hinside, houtside, -⟩ :=
    Machine.monitors_follow_tracking reachable_between hdistinct (Action.run_eq_of_fst hb)
  obtain rfl : spot 4 = s := Except.ok.inj hresolve
  obtain ⟨-, hcached⟩ := Rig.entry_eq_ok_iff.mp hentry
  obtain rfl : entry = held := List.mem_singleton.mp (cache_between ▸ List.mem_of_getElem? hcached)
  obtain ⟨b', hdirect, c, hcentroid, hreading⟩ := hinside 4 late (Nat.le_refl 4) (Nat.le_refl 4) rfl rfl
  obtain ⟨b'', hdirect', hposition⟩ := exists_ok_of_any (show (between.direct held 5).toOption.any
    (fun b => b.centroid.toOption.any fun c => (c.x, c.y) = (4, 0)) = true by decide +kernel)
  obtain rfl := Except.ok.inj (hdirect.symm.trans hdirect')
  rw [hcentroid] at hposition
  rw [beyond]
  refine ⟨hbefore, (houtside 2 early rfl ?_).trans hbefore, hreading.trans (of_decide_eq_true hposition)⟩
  intro r hr
  rcases List.mem_cons.mp hr with rfl | hr
  · rfl
  · obtain rfl := List.mem_singleton.mp hr
    rfl

end SmallMachine

end BeamOptics
