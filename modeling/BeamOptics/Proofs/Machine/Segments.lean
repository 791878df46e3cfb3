import BeamOptics.Accelerator.Channels
import BeamOptics.Proofs.Accelerator.Initialise
import BeamOptics.Proofs.Accelerator.Standing
import BeamOptics.Proofs.Lattice.Growth
import BeamOptics.Proofs.Machine.Tracking
import BeamOptics.Proofs.Tracking.Faults

/-!
# Segments in operation

An accelerator checks its active segment when it is set, and not again when it is used. Since lines only grow, the
segment stays one of the line, and no use of it is refused for its sake.
-/

namespace BeamOptics

variable {α : Type}

theorem SegmentArgument.Gives.resolve_accelerator {argument : SegmentArgument} {first last : Int}
    (h : argument.Gives first last) (a : Accelerator α) (m : Model α) : a.resolve m argument = argument.resolve m := by
  cases h <;> rfl

theorem Accelerator.segmentFree_entry (a : Accelerator α) (state : Datum) : SegmentFree (a.entry state) := by
  unfold Accelerator.entry
  split
  · exact .error rfl
  · exact .error rfl
  · dsimp only
    split
    · exact .ok _
    · exact .error rfl

/-- Channels along a segment, plane by plane. -/
def Model.channelsAlong (m : Model α) (ids : Plane → Pattern.Node) (writable : Bool) (choice : PlaneChoice)
    (s : Segment) : List (Channel α) :=
  choice.planes.flatMap fun plane => Channel.ofRange (m.slice s) writable (ids plane).fullMatch

theorem Accelerator.channels_of_resolve {a : Accelerator α} {m : Model α} {argument : SegmentArgument} {s : Segment}
    (hresolve : a.resolve m argument = .ok s) (hlast : s.last < m.length) (ids : Plane → Pattern.Node)
    (writable : Bool) (choice : PlaneChoice) :
    a.channels m ids writable choice argument = .ok (m.channelsAlong ids writable choice s) := by
  rw [channels, hresolve]
  change (m.subrange s.first s.last >>= _) = _
  rw [Model.subrange_of_last_lt hlast]
  rfl

theorem Accelerator.resolve_absent (a : Accelerator α) (m : Model α) :
    a.resolve m (.untyped .null) =
      match a.segment with
      | some s => .ok s
      | none => .error (.noActiveSegment a.name) := rfl

theorem Accelerator.resolve_active {a : Accelerator α} {s : Segment} (h : a.segment = some s) (m : Model α) :
    a.resolve m (.untyped .null) = .ok s := by rw [resolve_absent, h]

theorem Accelerator.resolve_inactive {a : Accelerator α} (h : a.segment = none) (m : Model α) :
    a.resolve m (.untyped .null) = .error (.noActiveSegment a.name) := by rw [resolve_absent, h]

namespace Rig

theorem run_setSegment_of_ok {m : Model α} {argument : SegmentArgument} {s : Segment}
    (h : argument.resolve m = .ok s) (rig : Rig α) :
    ∃ rig', (setSegment m argument).run rig = (.ok s, rig') ∧
      rig'.accelerator = { rig.accelerator with segment := some s } := by
  rw [setSegment, h]
  exact ⟨_, rfl, rfl⟩

theorem run_setSegment_of_error {m : Model α} {argument : SegmentArgument} {fault : Fault}
    (h : argument.resolve m = .error fault) (rig : Rig α) :
    (setSegment m argument).run rig = (.error fault, rig) := by
  rw [setSegment, h]
  rfl

end Rig

variable [Scalar α]

theorem Rig.segmentFree_tracked (rig : Rig α) (m : Model α) (entry : CachedBunch α) (s : Segment) :
    SegmentFree (rig.tracked m entry s) := by
  have hbrought : SegmentFree (rig.brought m entry s.first) := by
    unfold brought
    split
    · exact .ok _
    · refine (Bunch.segmentFree_copy _).bind fun b _ => ?_
      exact (Range.segmentFree_transport _ _ _ b).bind fun b' _ => .ok _
  unfold tracked
  split
  · refine hbrought.bind fun entry' _ => ?_
    exact (Bunch.segmentFree_copy _).bind fun b _ => Range.segmentFree_transport _ _ _ b
  · exact (Bunch.segmentFree_copy _).bind fun b _ => Range.segmentFree_transport _ _ _ b

namespace Machine

/-- The machines that commands in any order lead to, while other work may change sources, tracker and plant at any
time. -/
inductive Operated : Machine α → Prop
  | new (name : String) (line : Model α) (tracker : Tracker α) (plant : Plant α) :
    Operated (new name line tracker plant)
  | next {t : Machine α} (h : Operated t) (beam : ReferenceBeam α) (command : Command α) :
    Operated (command.after beam t)
  | beside {t : Machine α} (h : Operated t) (sources : List Source) (tracker : Tracker α) (plant : Plant α) :
    Operated ⟨{ t.line with sources }, { t.rig with tracker, plant }⟩

/-- The active segment is one of the line, and the bunches that states start from can be copied. -/
structure Usable (t : Machine α) : Prop where
  within : ∀ s ∈ t.rig.accelerator.segment, s.last < t.line.length
  copies : ∀ entry ∈ t.cache, entry.initial.copy = .ok entry.initial

/-- What tracking a state through a segment ends in, if the state is found. -/
def outcome (t : Machine α) (state : Datum) (s : Segment) : Except Fault (Bunch α) := do
  let found ← t.rig.accelerator.entry state
  t.rig.tracked t.line found.2 s

theorem segmentFree_outcome (t : Machine α) (state : Datum) (s : Segment) : SegmentFree (t.outcome state s) :=
  (t.rig.accelerator.segmentFree_entry state).bind fun found _ => t.rig.segmentFree_tracked t.line found.2 s

namespace Usable

variable {t : Machine α}

theorem copies_of_entry (h : t.Usable) {state : Datum} {n : Nat} {entry : CachedBunch α}
    (hentry : t.rig.accelerator.entry state = .ok (n, entry)) : entry.initial.copy = .ok entry.initial :=
  h.copies entry (List.mem_of_getElem? (Rig.getElem?_of_entry hentry))

theorem of_accelerator (h : t.Usable) {t' : Machine α} (hgrown : t.line.length ≤ t'.line.length)
    (haccelerator : t'.rig.accelerator = t.rig.accelerator) : t'.Usable where
  within := by
    rw [haccelerator]
    exact fun s hs => Nat.lt_of_lt_of_le (h.within s hs) hgrown
  copies := by
    rw [cache, haccelerator]
    exact h.copies

theorem of_line (h : t.Usable) {t' : Machine α} (hline : t'.line = t.line)
    (hsegment : ∀ s ∈ t'.rig.accelerator.segment, s ∈ t.rig.accelerator.segment ∨ s.last < t.line.length)
    (hcache : ∀ entry ∈ t'.cache, entry ∈ t.cache ∨ entry.initial.copy = .ok entry.initial) : t'.Usable where
  within := by
    rw [hline]
    exact fun s hs => (hsegment s hs).elim (h.within s) id
  copies := fun entry hentry => (hcache entry hentry).elim (h.copies entry) id

theorem initialise (h : t.Usable) (beam : ReferenceBeam α) (states : Datum) :
    (t.afterRig (Rig.initialise beam states)).Usable := by
  refine h.of_line rfl (fun s hs => .inl ?_) fun entry hentry => ?_
  · have hsegment := Rig.segment_initialise beam states t.rig
    exact hsegment ▸ hs
  · rcases Rig.mem_initialise hentry with hold | ⟨b, hcreated, rfl⟩
    · exact .inl hold
    · exact .inr (copy_of_createBunch hcreated)

theorem setSegment (h : t.Usable) (argument : SegmentArgument) :
    (t.afterRig (Rig.setSegment t.line argument)).Usable := by
  unfold Machine.afterRig Rig.setSegment
  cases hresolve : argument.resolve t.line with
  | error fault => exact h
  | ok s =>
    refine h.of_line rfl (fun s' hs' => .inr ?_) fun entry hentry => .inl hentry
    obtain rfl : s = s' := Option.some.inj hs'
    exact SegmentArgument.last_lt_of_resolve hresolve

theorem last_lt (h : t.Usable) {argument : SegmentArgument} {s : Segment}
    (hresolve : t.rig.accelerator.resolve t.line argument = .ok s) : s.last < t.line.length :=
  Rig.last_lt_of_resolve h.within hresolve

theorem trackState (h : t.Usable) (state : Datum) (argument : SegmentArgument) :
    (t.afterRig (Rig.trackState t.line state argument)).Usable := by
  unfold Machine.afterRig
  rcases t.rig.unchanged_or_found t.line state argument with hsame | ⟨s, n, entry, hresolve, hentry⟩
  · rw [hsame]
    exact h
  · have hcopy := h.copies_of_entry hentry
    obtain ⟨rig', hrun, haccelerator, -⟩ := Rig.run_trackState hresolve (h.last_lt hresolve) hentry hcopy
    rw [hrun]
    refine h.of_line rfl ?_ fun entry' hentry' => ?_
    · rw [haccelerator]
      exact fun s hs => .inl hs
    · rw [Machine.cache, haccelerator] at hentry'
      rcases List.mem_or_eq_of_mem_set hentry' with hold | rfl
      · exact .inl hold
      · rw [Rig.initial_left]
        exact .inr hcopy

theorem addElement (h : t.Usable) {e : Element α} {line : Model α} (hline : t.line.addElement e = .ok line) :
    Usable { t with line } :=
  h.of_accelerator (Model.Adds.element e hline).grownTo.length_le rfl

/-- Every command keeps it so. -/
theorem after (h : t.Usable) (beam : ReferenceBeam α) (command : Command α) : (command.after beam t).Usable := by
  have hstation {β : Type} (a : Action Fault (Station α) β) : (t.afterStation a).Usable :=
    h.of_accelerator (Nat.le_refl _) (Rig.keeps_accelerator_onStation a t.rig)
  have hplant {β : Type} (a : Action Fault (Plant α) β) : (t.afterPlant a).Usable :=
    h.of_accelerator (Nat.le_refl _) rfl
  have hcleared {t' : Machine α} (hline : t'.line = t.line) (hcache : t'.cache = [])
      (hsegment : t'.rig.accelerator.segment = t.rig.accelerator.segment) : t'.Usable :=
    h.of_line hline (fun s hs => .inl (hsegment ▸ hs)) fun entry hentry => absurd (hcache ▸ hentry) List.not_mem_nil
  cases command with
  | initialise states => exact h.initialise beam states
  | clearCache => exact hcleared rfl rfl rfl
  | setTracker tracker => exact hcleared rfl rfl rfl
  | setIncremental flag => exact h.of_line rfl (fun _ => .inl) fun _ => .inl
  | setSegment argument => exact h.setSegment argument
  | trackState state argument => exact h.trackState state argument
  | trackNewBunch =>
    exact h.of_accelerator (Nat.le_refl _) (Rig.keeps_accelerator_trackNewBunch t.line beam t.rig)
  | addElement e =>
    dsimp only [Command.after]
    cases hline : t.line.addElement e with
    | ok line => exact h.addElement hline
    | error fault => exact h
  | write c value => exact hplant _
  | putBunch number load => exact hplant _
  | setRange range => exact hstation _
  | setInitial initial => exact hstation _
  | trackInPlace bunch => exact hstation _
  | trackCopy => exact hstation _
  | initStepper bunch => exact hstation _
  | step => exact hstation _
  | findOrbit decompose config momentum argument guess =>
    dsimp only [Command.after]
    cases argument.range t.line with
    | ok range => exact hstation _
    | error fault => exact h
  | findExcursion momentum start => exact hplant _

end Usable

theorem Operated.usable {t : Machine α} (h : t.Operated) : t.Usable := by
  induction h with
  | new name line tracker plant => exact ⟨nofun, nofun⟩
  | next _ beam command ih => exact ih.after beam command
  | beside _ sources tracker plant ih => exact ih.of_accelerator (Nat.le_refl _) rfl

/-! ### Uses of segments -/

omit [Scalar α] in
theorem settles_setSegment (t : Machine α) {argument : SegmentArgument} {first last : Int}
    (h : argument.Gives first last) :
    t.line.Settles first last .ok ((Rig.setSegment t.line argument).run t.rig).1 := by
  refine (h.settles_resolve t.line).follow (fun s hs => ?_) fun fault hfault => ?_
  · obtain ⟨rig', hrun, -⟩ := Rig.run_setSegment_of_ok hs t.rig
    rw [hrun]
  · rw [Rig.run_setSegment_of_error hfault]

namespace Usable

variable {t : Machine α}

/-- A call works on the segment that it finds. -/
theorem outcome_trackState (h : t.Usable) {argument : SegmentArgument} {s : Segment}
    (hresolve : t.rig.accelerator.resolve t.line argument = .ok s) (state : Datum) :
    ((Rig.trackState t.line state argument).run t.rig).1 = t.outcome state s := by
  unfold outcome
  cases hentry : t.rig.accelerator.entry state with
  | error fault =>
    rw [Rig.run_trackState_of_entry hresolve hentry]
    rfl
  | ok found =>
    obtain ⟨n, entry⟩ := found
    obtain ⟨rig', hrun, -, -⟩ := Rig.run_trackState hresolve (h.last_lt hresolve) hentry (h.copies_of_entry hentry)
    rw [hrun]
    rfl

theorem settles_trackState (h : t.Usable) {argument : SegmentArgument} {first last : Int}
    (hgives : argument.Gives first last) (state : Datum) :
    t.line.Settles first last (t.outcome state) ((Rig.trackState t.line state argument).run t.rig).1 := by
  have hresolve := hgives.resolve_accelerator t.rig.accelerator t.line ▸ hgives.settles_resolve t.line
  refine hresolve.follow (fun s hs => h.outcome_trackState hs state) fun fault hfault => ?_
  rw [Rig.run_trackState_of_resolve hfault]

theorem settles_channels (h : t.Usable) {argument : SegmentArgument} {first last : Int}
    (hgives : argument.Gives first last) (ids : Plane → Pattern.Node) (writable : Bool) (choice : PlaneChoice) :
    t.line.Settles first last (fun s => .ok (t.line.channelsAlong ids writable choice s))
      (t.rig.accelerator.channels t.line ids writable choice argument) := by
  have hresolve := hgives.resolve_accelerator t.rig.accelerator t.line ▸ hgives.settles_resolve t.line
  refine hresolve.follow (fun s hs => ?_) fun fault hfault => ?_
  · exact Accelerator.channels_of_resolve hs (h.last_lt hs) ids writable choice
  · rw [Accelerator.channels, hfault]
    rfl

/-- Without an active segment a call is refused for that, and with one it is as if that were given. -/
theorem segmentFree_trackState (h : t.Usable) (state : Datum) :
    SegmentFree ((Rig.trackState t.line state (.untyped .null)).run t.rig).1 := by
  cases hactive : t.rig.accelerator.segment with
  | none =>
    rw [Rig.run_trackState_of_resolve (Accelerator.resolve_inactive hactive t.line)]
    exact .error rfl
  | some s =>
    rw [h.outcome_trackState (Accelerator.resolve_active hactive t.line)]
    exact t.segmentFree_outcome state s

theorem segmentFree_channels (h : t.Usable) (ids : Plane → Pattern.Node) (writable : Bool) (choice : PlaneChoice) :
    SegmentFree (t.rig.accelerator.channels t.line ids writable choice (.untyped .null)) := by
  cases hactive : t.rig.accelerator.segment with
  | none =>
    rw [Accelerator.channels, Accelerator.resolve_inactive hactive]
    exact .error rfl
  | some s =>
    have hresolve := Accelerator.resolve_active hactive t.line
    rw [Accelerator.channels_of_resolve hresolve (h.within s hactive)]
    exact .ok _

end Usable

/-- Whatever bounds are given, as a segment or as a pair, every use of a segment takes the same ones: those in order
and on the line. It is then about the same part of the line, and otherwise refuses the segment. A refusal leaves the
active segment and all else as it was. The active segment is one of the line at any time, and to fall back on it is to
give it; no such call refuses a segment, whether there is an active segment or not. -/
theorem stored_segment_stays_usable {t : Machine α} (h : t.Operated) :
    (∀ first last : Int, (t.line.segment? first last).isSome = true ↔
      0 ≤ first ∧ first ≤ last ∧ last < t.line.length) ∧
    (∀ (argument : SegmentArgument) (first last : Int), argument.Gives first last →
      t.line.Settles first last .ok ((Rig.setSegment t.line argument).run t.rig).1 ∧
      (∀ state, t.line.Settles first last (t.outcome state) ((Rig.trackState t.line state argument).run t.rig).1) ∧
      (∀ ids writable choice, t.line.Settles first last (fun s => .ok (t.line.channelsAlong ids writable choice s))
        (t.rig.accelerator.channels t.line ids writable choice argument)) ∧
      t.line.Settles first last (fun s => .ok (t.line.slice s)) (argument.range t.line) ∧
      t.line.Settles first last (fun s => .ok (t.line.slice s)) (t.line.subrange first last) ∧
      t.line.Settles first last (fun s => .ok (t.line.slice s))
        (SegmentArgument.rangeBetween t.line (.int first) (.int last))) ∧
    (∀ argument : SegmentArgument,
      match (Rig.setSegment t.line argument).run t.rig with
      | (.ok s, rig) => rig.accelerator = { t.rig.accelerator with segment := some s }
      | (.error _, rig) => rig = t.rig) ∧
    (∀ s, t.rig.accelerator.segment = some s →
      s.last < t.line.length ∧
      (∀ state, ((Rig.trackState t.line state (.untyped .null)).run t.rig).1 = t.outcome state s) ∧
      ∀ ids writable choice, t.rig.accelerator.channels t.line ids writable choice (.untyped .null) =
        .ok (t.line.channelsAlong ids writable choice s)) ∧
    (∀ state, SegmentFree ((Rig.trackState t.line state (.untyped .null)).run t.rig).1) ∧
    (∀ ids writable choice, SegmentFree (t.rig.accelerator.channels t.line ids writable choice (.untyped .null))) ∧
    ∀ state s, SegmentFree (t.outcome state s) := by
  have husable := h.usable
  refine ⟨fun first last => Model.isSome_segment?_iff, ?_, ?_, ?_, husable.segmentFree_trackState,
    husable.segmentFree_channels, t.segmentFree_outcome⟩
  · intro argument first last hgives
    exact ⟨t.settles_setSegment hgives, husable.settles_trackState hgives, husable.settles_channels hgives,
      hgives.settles_range t.line, t.line.settles_subrange first last,
      SegmentArgument.settles_rangeBetween t.line first last⟩
  · intro argument
    cases hresolve : argument.resolve t.line with
    | error fault => rw [Rig.run_setSegment_of_error hresolve]
    | ok s =>
      obtain ⟨rig', hrun, haccelerator⟩ := Rig.run_setSegment_of_ok hresolve t.rig
      rw [hrun]
      exact haccelerator
  · intro s hactive
    have hresolve := Accelerator.resolve_active hactive t.line
    have hlast := husable.within s hactive
    exact ⟨hlast, husable.outcome_trackState hresolve, Accelerator.channels_of_resolve hresolve hlast⟩

end Machine

namespace SmallMachine

/-- The small machine with an active segment, on a line that has grown since. -/
def active : Machine Int :=
  (Command.addElement ⟨5, "More", "Marker", 0, .marker⟩).after beam
    ((Command.setSegment (.untyped (.pair 1 2))).after beam ready)

theorem operated_active : active.Operated :=
  .next (.next (.next (.new "small" line _ _) beam (.initialise (.int 1))) beam _) beam _

/-- The active segment does what its bounds do, and bounds beyond the line are refused. -/
theorem stored_segment_stays_usable_small :
    active.rig.accelerator.segment = some ⟨1, 2, by decide⟩ ∧
      (∀ state, ((Rig.trackState active.line state (.untyped .null)).run active.rig).1 =
        ((Rig.trackState active.line state (.untyped (.pair 1 2))).run active.rig).1) ∧
      ∃ fault, ((Rig.setSegment active.line (.segment ⟨5, 6, by decide⟩)).run active.rig).1 = .error fault ∧
        fault.isSegment = true := by
  obtain ⟨-, hgiven, -, hactive, -⟩ := Machine.stored_segment_stays_usable operated_active
  have hsegment : active.rig.accelerator.segment = some ⟨1, 2, by decide⟩ := by decide +kernel
  obtain ⟨hlast, htrack, -⟩ := hactive _ hsegment
  refine ⟨hsegment, fun state => ?_, ?_⟩
  · have hpair := (hgiven _ 1 2 (.pair 1 2)).2.1 state
    have hfound : active.line.segment? 1 2 = some ⟨1, 2, by decide⟩ := by decide +kernel
    rw [Model.Settles, hfound] at hpair
    exact (htrack state).trans hpair.symm
  · have hbeyond := (hgiven _ 5 6 (.segment ⟨5, 6, by decide⟩)).1
    have hnone : active.line.segment? 5 6 = none := by decide +kernel
    rw [Model.Settles, hnone] at hbeyond
    exact hbeyond

end SmallMachine

end BeamOptics
