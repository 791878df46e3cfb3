import BeamOptics.Proofs.Accelerator.Legs
import BeamOptics.Proofs.Machine.Tracking

/-!
# Sweeps along a line

What a state's incremental calls track, one after the other, as a recorder at the tracker sees it. A call fills the
gap to its segment and then tracks the segment; where the gap starts is where the last call has left the state. A
sweep, whose segments never start further back, so fills no part of the line twice.
-/

namespace BeamOptics

def Segment.indexes (s : Segment) : List Nat := List.range' s.first s.length

namespace CachedBunch

variable {α : Type}

/-- The gap between an entry and an index of the line, if there is one. -/
def gaps (entry : CachedBunch α) (first : Nat) : List Segment :=
  if h : (entry.base first).next < first then [⟨(entry.base first).next, first - 1, by omega⟩] else []

theorem length_gaps_le (entry : CachedBunch α) (first : Nat) : (entry.gaps first).length ≤ 1 := by
  unfold gaps
  split
  · exact Nat.le_refl 1
  · exact Nat.zero_le 1

theorem indexes_gaps (entry : CachedBunch α) (first : Nat) :
    (entry.gaps first).flatMap Segment.indexes =
      List.range' (entry.base first).next (first - (entry.base first).next) := by
  unfold gaps
  split
  · rename_i hlt
    rw [List.flatMap_singleton, Segment.indexes]
    congr 1
    simp only [Segment.length]
    omega
  · rename_i hlt
    rw [Nat.sub_eq_zero_of_le (Nat.le_of_not_lt hlt)]
    rfl

theorem first_of_mem_gaps {entry : CachedBunch α} {first : Nat} {gap : Segment} (h : gap ∈ entry.gaps first) :
    gap.first = (entry.base first).next := by
  unfold gaps at h
  split at h
  · obtain rfl := List.mem_singleton.mp h
    rfl
  · cases h

/-- A gap that starts with the line is that of an entry at its start, or of one at or past the index. -/
theorem location_of_mem_gaps {entry : CachedBunch α} {first : Nat} {gap : Segment} (h : gap ∈ entry.gaps first)
    (hstart : gap.first = 0) : entry.location = none ∨ ∃ k, entry.location = some k ∧ first ≤ k := by
  cases hlocation : entry.location with
  | none => exact .inl rfl
  | some k =>
    have hnext : entry.next = k + 1 := by rw [next, hlocation]
    refine .inr ⟨k, rfl, ?_⟩
    -- an entry ahead of the index would go on from where it is
    by_contra hahead
    rw [first_of_mem_gaps h, base_of_next_le (by omega), hnext] at hstart
    cases hstart

end CachedBunch

namespace Rig

variable {α : Type}

theorem span_part {m : Model α} {first last : Nat} (hordered : first ≤ last) (hlast : last < m.length) :
    (m.part first (last + 1)).span = ⟨first, last, hordered⟩ := by
  have hlength : (m.part first (last + 1)).elements.length = last + 1 - first :=
    Model.length_part (Nat.succ_le_of_lt hlast)
  simp only [Range.span, Range.last, hlength, Segment.mk.injEq]
  exact ⟨rfl, by simp only [Model.part]; omega⟩

theorem span_gapLegs {m : Model α} (entry : CachedBunch α) {first : Nat} (hfirst : first ≤ m.length) :
    (gapLegs m entry first).map Range.span = entry.gaps first := by
  have hnext := entry.next_base_le first
  unfold gapLegs CachedBunch.gaps
  by_cases hat : (entry.base first).next = first
  · rw [if_pos (by simp [CachedBunch.isAt, hat]), dif_neg (by omega), List.map_nil]
  · have hlt : (entry.base first).next < first := by omega
    obtain ⟨last, rfl⟩ : ∃ last, first = last + 1 := ⟨first - 1, by omega⟩
    rw [if_neg (by simpa [CachedBunch.isAt] using hat), dif_pos hlt, List.map_singleton,
      span_part (Nat.le_of_lt_succ hlt) (by omega)]
    rfl

end Rig

namespace Command

variable {α : Type}

/-- A command that leaves the entry of a state to itself: it discards no states, and does not call for that one in
incremental mode. -/
def Spares (n : Nat) (t : Machine α) : Command α → Prop
  | initialise _ | clearCache | setTracker _ => False
  | trackState state _ => t.rig.accelerator.incremental = true → state.whole? ≠ some (n : Int)
  | _ => True

variable [Scalar α] {beam : ReferenceBeam α} {t : Machine α} {n : Nat} {command : Command α}

theorem getElem?_cache_of_spares (h : t.Sound beam) (hspares : command.Spares n t) :
    (command.after beam t).cache[n]? = t.cache[n]? := by
  cases command with
  | initialise states => exact hspares.elim
  | clearCache => exact hspares.elim
  | setTracker tracker => exact hspares.elim
  | setIncremental flag => rfl
  | setSegment argument =>
    dsimp only [after, Machine.afterRig, Rig.setSegment]
    cases argument.resolve t.line <;> rfl
  | trackState state argument =>
    dsimp only [after, Machine.afterRig, Machine.cache]
    by_cases hincremental : t.rig.accelerator.incremental = true
    · rcases t.rig.unchanged_or_found t.line state argument with hsame | ⟨s, other, entry, hresolve, hentry⟩
      · rw [hsame]
      · have hother : other ≠ n := by
          rintro rfl
          exact hspares hincremental (Rig.entry_eq_ok_iff.mp hentry).1
        obtain ⟨rig', hrun, haccelerator, -⟩ := Rig.run_trackState hresolve (h.last_lt hresolve) hentry
          (h.stands_of_entry hentry).copy_initial
        rw [hrun, haccelerator]
        exact List.getElem?_set_ne hother
    · rw [Machine.accelerator_of_not_incremental h (by simpa using hincremental)]
  | trackNewBunch =>
    have haccelerator := Rig.keeps_accelerator_trackNewBunch t.line beam t.rig
    exact congrArg (fun a => a.cache[n]?) haccelerator
  | addElement e =>
    dsimp only [after]
    cases t.line.addElement e <;> rfl
  | write c value => rfl
  | putBunch number load => rfl
  | setRange range => rfl
  | setInitial initial => rfl
  | trackInPlace bunch => rfl
  | trackCopy => rfl
  | initStepper bunch => rfl
  | step => rfl
  | findOrbit decompose config momentum argument guess =>
    dsimp only [after]
    cases argument.range t.line <;> rfl
  | findExcursion momentum start => rfl

theorem observers_of_spares (hspares : command.Spares n t) :
    (command.after beam t).rig.tracker.observers = t.rig.tracker.observers := by
  have hsteady := Station.steady_observers (α := α)
  cases command with
  | initialise states => exact hspares.elim
  | clearCache => exact hspares.elim
  | setTracker tracker => exact hspares.elim
  | setIncremental flag => exact Rig.keeps_setIncremental hsteady flag t.rig
  | setSegment argument => exact Rig.keeps_setSegment hsteady t.line argument t.rig
  | trackState state argument =>
    exact Rig.keeps_trackState (Rig.keeps_note hsteady) (Rig.keeps_putEntry Station.observers)
      (Rig.keeps_trackFrom hsteady) t.line state argument t.rig
  | trackNewBunch => exact Rig.keeps_trackNewBunch hsteady t.line beam t.rig
  | addElement e =>
    dsimp only [after]
    cases t.line.addElement e <;> rfl
  | write c value => rfl
  | putBunch number load => rfl
  | setRange range => exact Station.keeps_setRange hsteady range t.rig.station
  | setInitial initial => exact Station.keeps_setInitial hsteady initial t.rig.station
  | trackInPlace bunch => exact Station.keeps_rideShared hsteady bunch Ride.keeps_fixtures_track t.rig.station
  | trackCopy => exact Station.keeps_trackCopy hsteady t.rig.station
  | initStepper bunch => exact Station.keeps_initStepper hsteady bunch t.rig.station
  | step => exact Station.keeps_step hsteady t.rig.station
  | findOrbit decompose config momentum argument guess =>
    dsimp only [after]
    cases argument.range t.line with
    | error fault => rfl
    | ok range =>
      obtain ⟨-, processes, htracker⟩ := OrbitSearch.leaves_find decompose config momentum range guess t.rig.station
      exact (congrArg Tracker.observers htracker :)
  | findExcursion momentum start => rfl

end Command

/-- A successful incremental call for a state, with the ranges that were tracked for it. -/
structure Call where
  /-- The last element that the state had passed before, if any. -/
  location : Option Nat
  segment : Segment
  ranges : List Segment

namespace Call

/-- What was tracked before the segment. -/
def gaps (call : Call) : List Segment := call.ranges.dropLast

/-- The start of the segment last called for, or that of the line. -/
def lastStart (calls : List Call) : Nat := (calls.getLast?.map fun call => call.segment.first).getD 0

theorem lastStart_concat (calls : List Call) (call : Call) : lastStart (calls ++ [call]) = call.segment.first := by
  rw [lastStart, List.getLast?_concat]
  rfl

theorem lastStart_le {calls : List Call} {first : Nat} (h : ∀ call ∈ calls, call.segment.first ≤ first) :
    lastStart calls ≤ first := by
  unfold lastStart
  cases hlast : calls.getLast? with
  | none => exact Nat.zero_le first
  | some last => exact h last (List.mem_of_getLast? hlast)

theorem gaps_of_ranges {call : Call} {gaps : List Segment} (h : call.ranges = gaps ++ [call.segment]) :
    call.gaps = gaps := by
  rw [Call.gaps, h, List.dropLast_concat]

end Call

namespace Machine

variable {α : Type} [Scalar α]

/-- The successful incremental calls for a state that have been made on the way from one machine to another, with
other commands between them, and what a recorder was told of each. -/
inductive History (beam : ReferenceBeam α) (n k : Nat) (start : Machine α) : List Call → Machine α → Prop
  | start : History beam n k start [] start
  | beside {calls : List Call} {t : Machine α} {command : Command α} (before : History beam n k start calls t)
    (allowed : command.Allowed t) (spares : command.Spares n t) : History beam n k start calls (command.after beam t)
  | call {calls : List Call} {t : Machine α} {state : Datum} {argument : SegmentArgument} {s : Segment}
    {entry : CachedBunch α} {b : Bunch α} {rig' : Rig α} (before : History beam n k start calls t)
    (incremental : t.rig.accelerator.incremental = true)
    (resolved : t.rig.accelerator.resolve t.line argument = .ok s)
    (found : t.rig.accelerator.entry state = .ok (n, entry))
    (succeeded : (Rig.trackState t.line state argument).run t.rig = (.ok b, rig')) :
    History beam n k start (calls ++ [⟨entry.location, s, t.rig.plant.journeysSince rig'.plant k⟩])
      { t with rig := rig' }

/-- What holds between the calls of a history: the state stands where the last one has left it. -/
structure Attended (beam : ReferenceBeam α) (n k : Nat) (calls : List Call) (t : Machine α) : Prop where
  sound : t.Sound beam
  recorded : t.rig.tracker.observers.count (.recorder k) = 1
  next : ∀ entry, t.cache[n]? = some entry → entry.next = Call.lastStart calls

section Calls

variable {beam : ReferenceBeam α} {n k : Nat} {calls : List Call} {t : Machine α} {state : Datum}
  {argument : SegmentArgument} {s : Segment} {entry : CachedBunch α} {b : Bunch α} {rig' : Rig α}

/-- A call tracks the gap, if there is one, and then its segment. -/
theorem Attended.ranges (h : t.Attended beam n k calls) (hincremental : t.rig.accelerator.incremental = true)
    (hresolve : t.rig.accelerator.resolve t.line argument = .ok s)
    (hentry : t.rig.accelerator.entry state = .ok (n, entry))
    (hsuccess : (Rig.trackState t.line state argument).run t.rig = (.ok b, rig')) :
    t.rig.plant.journeysSince rig'.plant k = entry.gaps s.first ++ [s] := by
  have hordered := s.ordered
  have hlast := h.sound.last_lt hresolve
  obtain ⟨htracks, -⟩ := Rig.legs_of_trackState hresolve hlast hentry (h.sound.stands_of_entry hentry).copy_initial
    hsuccess
  apply Plant.journeysSince_of_append
  rw [htracks.journeys k, h.recorded]
  congr 1
  calc (t.rig.legs t.line entry s).flatMap (fun r => [r.span])
      = (Rig.gapLegs t.line entry s.first).map Range.span ++ [(t.rig.lastLeg t.line s).span] := by
        rw [← List.map_eq_flatMap, Rig.legs, if_pos hincremental, List.map_append, List.map_singleton]
    _ = entry.gaps s.first ++ [s] := by
        rw [Rig.span_gapLegs entry (by omega), Rig.lastLeg, if_pos hincremental, Rig.span_part hordered hlast]

theorem Attended.call (h : t.Attended beam n k calls) (hincremental : t.rig.accelerator.incremental = true)
    (hresolve : t.rig.accelerator.resolve t.line argument = .ok s)
    (hentry : t.rig.accelerator.entry state = .ok (n, entry))
    (hsuccess : (Rig.trackState t.line state argument).run t.rig = (.ok b, rig')) (location : Option Nat)
    (ranges : List Segment) :
    Attended beam n k (calls ++ [⟨location, s, ranges⟩]) { t with rig := rig' } where
  sound := by
    have hsound := h.sound.trackState state argument
    rwa [Machine.afterRig, hsuccess] at hsound
  recorded := by
    obtain ⟨htracks, -⟩ := Rig.legs_of_trackState hresolve (h.sound.last_lt hresolve) hentry
      (h.sound.stands_of_entry hentry).copy_initial hsuccess
    exact (congrArg (List.count _) htracks.observers).trans h.recorded
  next left hleft := by
    obtain ⟨s', n', entry', b', hresolve', hentry', -, haccelerator⟩ :=
      accelerator_of_success h.sound hincremental (congrArg Prod.fst hsuccess)
    obtain rfl := Except.ok.inj (hresolve.symm.trans hresolve')
    obtain ⟨rfl, rfl⟩ := Prod.ext_iff.mp (Except.ok.inj (hentry.symm.trans hentry'))
    rw [hsuccess] at haccelerator
    obtain ⟨hn, -⟩ := List.getElem?_eq_some_iff.mp (Rig.getElem?_of_entry hentry)
    have hright : rig'.accelerator.cache[n]? = some (.rightBefore s.first b' entry.initial) := by
      rw [haccelerator]
      exact List.getElem?_set_self hn
    obtain rfl := Option.some.inj (hright.symm.trans hleft)
    rw [Call.lastStart_concat, CachedBunch.next_rightBefore]

theorem Attended.beside (h : t.Attended beam n k calls) {command : Command α} (hallowed : command.Allowed t)
    (hspares : command.Spares n t) : (command.after beam t).Attended beam n k calls where
  sound := h.sound.after hallowed
  recorded := by
    rw [Command.observers_of_spares hspares]
    exact h.recorded
  next entry hentry := by
    rw [Command.getElem?_cache_of_spares h.sound hspares] at hentry
    exact h.next entry hentry

end Calls

section Histories

variable {beam : ReferenceBeam α} {n k : Nat} {start t : Machine α} {calls : List Call}

theorem History.exists_call (h : History beam n k start calls t) (state : Datum) (argument : SegmentArgument)
    (hincremental : t.rig.accelerator.incremental = true) (hstate : state.whole? = some (n : Int)) {s : Segment}
    (hresolve : t.rig.accelerator.resolve t.line argument = .ok s)
    (hsuccess : ∃ b, ((Rig.trackState t.line state argument).run t.rig).1 = .ok b) :
    ∃ call : Call, call.segment = s ∧
      History beam n k start (calls ++ [call]) ((Command.trackState state argument).after beam t) := by
  obtain ⟨b, hb⟩ := hsuccess
  have hrun := Action.run_eq_of_fst hb
  obtain ⟨_, other, entry, -, hentry⟩ := Rig.found_of_trackState hrun
  obtain rfl : other = n :=
    Int.ofNat.inj (Option.some.inj ((Rig.entry_eq_ok_iff.mp hentry).1.symm.trans hstate))
  exact ⟨_, rfl, h.call hincremental hresolve hentry hrun⟩

theorem History.attended (h : History beam n k start calls t) (hstart : start.Attended beam n k []) :
    t.Attended beam n k calls := by
  induction h with
  | start => exact hstart
  | beside _ hallowed hspares ih => exact ih.beside hallowed hspares
  | call _ hincremental hresolve hentry hsuccess ih => exact ih.call hincremental hresolve hentry hsuccess _ _

/-- Every call of a history was made where the calls before it have led. -/
theorem History.exists_entry (h : History beam n k start calls t) (hstart : start.Attended beam n k [])
    {earlier later : List Call} {call : Call} (hcalls : calls = earlier ++ call :: later) :
    ∃ entry : CachedBunch α, entry.next = Call.lastStart earlier ∧ call.location = entry.location ∧
      call.ranges = entry.gaps call.segment.first ++ [call.segment] := by
  induction h generalizing later with
  | start => exact absurd hcalls.symm (List.append_ne_nil_of_right_ne_nil _ (List.cons_ne_nil _ _))
  | beside _ _ _ ih => exact ih hcalls
  | @call calls t state argument s entry b rig' hbefore hincremental hresolve hentry hsuccess ih =>
    have hattended := hbefore.attended hstart
    -- the call in question is the last one, or one of those before it
    rcases List.eq_nil_or_concat' later with rfl | ⟨later, last, rfl⟩
    · obtain ⟨rfl, hcall⟩ := List.append_inj' hcalls rfl
      obtain rfl := List.singleton_inj.mp hcall
      exact ⟨entry, hattended.next entry (Rig.getElem?_of_entry hentry), rfl,
        hattended.ranges hincremental hresolve hentry hsuccess⟩
    · rw [← List.cons_append, ← List.append_assoc] at hcalls
      exact ih (List.append_inj' hcalls rfl).1

/-- What the calls of a sweep fill is the line up to the start of the last segment, index by index. -/
theorem History.gaps_of_sweep (h : History beam n k start calls t) (hstart : start.Attended beam n k [])
    (hsweep : (calls.map fun call => call.segment.first).Pairwise (· ≤ ·)) :
    (calls.flatMap Call.gaps).flatMap Segment.indexes = List.range (Call.lastStart calls) := by
  induction h with
  | start => rfl
  | beside _ _ _ ih => exact ih hsweep
  | @call calls t state argument s entry b rig' hbefore hincremental hresolve hentry hsuccess ih =>
    rw [List.map_append, List.pairwise_append] at hsweep
    obtain ⟨hearlier, -, hlast⟩ := hsweep
    have hattended := hbefore.attended hstart
    have hnext := hattended.next entry (Rig.getElem?_of_entry hentry)
    have hle : Call.lastStart calls ≤ s.first :=
      Call.lastStart_le fun call hcall => hlast _ (List.mem_map_of_mem hcall) _ List.mem_cons_self
    rw [List.flatMap_append, List.flatMap_append, ih hearlier, List.flatMap_singleton, Call.lastStart_concat,
      Call.gaps_of_ranges (hattended.ranges hincremental hresolve hentry hsuccess), entry.indexes_gaps,
      CachedBunch.base_of_next_le (hnext ▸ hle), hnext]
    have happend := List.range'_append_1 (s := 0) (m := Call.lastStart calls) (n := s.first - Call.lastStart calls)
    rw [Nat.zero_add, Nat.add_sub_cancel' hle] at happend
    rw [List.range_eq_range', List.range_eq_range']
    exact happend

end Histories

/-- What a recorder sees of a state from its initialisation on: every incremental call tracks its segment once, right
after one gap at most. In a sweep the gaps make up the line up to the start of the last segment, each index once and in
order. Whatever the calls are, a gap starts with the line only if the state has not been called for before, was left at
the start of the line by the last call, or is at or past the start of the segment. -/
theorem sweeps_fill_no_gap_twice {beam : ReferenceBeam α} {t₀ : Machine α} (h : t₀.Reachable beam) {states : Datum}
    {bunches : List (Bunch α)} {rig : Rig α}
    (hinitialised : (Rig.initialise beam states).run t₀.rig = (.ok bunches, rig)) {k : Nat}
    (hrecorder : rig.tracker.observers.count (.recorder k) = 1) {n : Nat} {calls : List Call} {t : Machine α}
    (hhistory : History beam n k { t₀ with rig } calls t) :
    (∀ call ∈ calls, call.ranges = call.gaps ++ [call.segment] ∧ call.gaps.length ≤ 1) ∧
    ((calls.map fun call => call.segment.first).Pairwise (· ≤ ·) →
      (calls.flatMap Call.gaps).flatMap Segment.indexes = List.range (Call.lastStart calls)) ∧
    ∀ earlier call later, calls = earlier ++ call :: later → ∀ gap ∈ call.gaps, gap.first = 0 →
      earlier = [] ∨ (∃ last, earlier.getLast? = some last ∧ last.segment.startsAtOrigin = true) ∨
        ∃ location, call.location = some location ∧ call.segment.first ≤ location := by
  have hstart : Attended beam n k [] { t₀ with rig } := by
    refine ⟨?_, hrecorder, fun entry hentry => ?_⟩
    · have hsound := (sound_of_reachable h).initialise states
      rwa [Machine.afterRig, hinitialised] at hsound
    · obtain ⟨b, rfl⟩ := Rig.fresh_of_initialise hinitialised (List.mem_of_getElem? hentry)
      rfl
  refine ⟨fun call hcall => ?_, hhistory.gaps_of_sweep hstart, fun earlier call later hcalls gap hgap hfirst => ?_⟩
  · obtain ⟨earlier, later, hcalls⟩ := List.append_of_mem hcall
    obtain ⟨entry, -, -, hranges⟩ := hhistory.exists_entry hstart hcalls
    rw [Call.gaps_of_ranges hranges]
    exact ⟨hranges, entry.length_gaps_le _⟩
  · obtain ⟨entry, hnext, hlocation, hranges⟩ := hhistory.exists_entry hstart hcalls
    rw [Call.gaps_of_ranges hranges] at hgap
    rcases CachedBunch.location_of_mem_gaps hgap hfirst with hnone | ⟨location, hsome, hpast⟩
    · rw [CachedBunch.next, hnone] at hnext
      cases hlast : earlier.getLast? with
      | none => exact .inl (List.getLast?_eq_none_iff.mp hlast)
      | some last =>
        rw [Call.lastStart, hlast] at hnext
        exact .inr (.inl ⟨last, rfl, beq_iff_eq.mpr hnext.symm⟩)
    · exact .inr (.inr ⟨location, hlocation.trans hsome, hpast⟩)

end Machine

/-! ### A recorded sweep -/

namespace SmallMachine

def recorded : Machine Int := .new "recorded" line { observers := [.recorder 0] } { }

def prepared : Machine Int := (Command.initialise (.int 2)).after beam recorded

def near : Segment := ⟨1, 2, by decide⟩

def middle : Segment := ⟨2, 3, by decide⟩

def callFor (state : Int) (s : Segment) : Command Int := .trackState (.int state) (.segment s)

/-- After a call for the first state, and one for the other that goes further. -/
def overtaken : Machine Int := (callFor 1 (spot 4)).after beam ((callFor 0 near).after beam prepared)

theorem callFor_succeeds {t : Machine Int} {state : Int} {s : Segment}
    (h : ((Rig.trackState t.line (.int state) (.segment s)).run t.rig).1.toOption.any (fun _ => true) = true) :
    ∃ b, ((Rig.trackState t.line (.int state) (.segment s)).run t.rig).1 = .ok b :=
  (exists_ok_of_any h).imp fun _ => And.left

/-- Three calls for one state that overlap fill the line up to the last of them once. -/
theorem sweeps_fill_no_gap_twice_recorded :
    ∃ calls t, Machine.History beam 0 0 prepared calls t ∧ calls.map (·.segment.first) = [1, 2, 4] ∧
      (calls.flatMap Call.gaps).flatMap Segment.indexes = [0, 1, 2, 3] := by
  have hstart : Machine.History beam 0 0 prepared [] prepared := .start
  obtain ⟨first, hfirst, hhistory⟩ := hstart.exists_call (.int 0) (.segment near) (by decide +kernel) rfl rfl
    (callFor_succeeds (by decide +kernel))
  have hbeside : Machine.History beam 0 0 prepared [first] overtaken :=
    hhistory.beside (show (callFor 1 (spot 4)).Allowed _ from trivial) fun _ => by decide
  obtain ⟨second, hsecond, hhistory⟩ := hbeside.exists_call (.int 0) (.segment middle) (by decide +kernel) rfl rfl
    (callFor_succeeds (by decide +kernel))
  obtain ⟨third, hthird, hhistory⟩ := hhistory.exists_call (.int 0) (.segment (spot 4)) (by decide +kernel) rfl rfl
    (callFor_succeeds (by decide +kernel))
  obtain ⟨bunches, hbunches, -⟩ := exists_ok_of_any (show ((Rig.initialise beam (.int 2)).run
    recorded.rig).1.toOption.any (fun _ => true) = true by decide +kernel)
  have hstarts : ([first] ++ [second] ++ [third]).map (·.segment.first) = [1, 2, 4] := by
    simp only [List.cons_append, List.nil_append, List.map_cons, List.map_nil, hfirst, hsecond, hthird]
    rfl
  obtain ⟨-, hsweep, -⟩ := Machine.sweeps_fill_no_gap_twice ⟨_, _, _, _, .start⟩ (Action.run_eq_of_fst hbunches)
    (by decide +kernel) hhistory
  refine ⟨_, _, hhistory, hstarts, (hsweep ?_).trans ?_⟩
  · rw [hstarts]
    decide
  · simp only [Call.lastStart_concat, hthird]
    rfl

end SmallMachine

end BeamOptics
