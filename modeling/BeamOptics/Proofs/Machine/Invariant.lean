import BeamOptics.Proofs.Accelerator.Initialise
import BeamOptics.Proofs.Accelerator.Standing
import BeamOptics.Proofs.ClosedOrbit.Frame
import BeamOptics.Proofs.Lattice.Growth
import BeamOptics.Proofs.Machine.Basic

/-!
# The invariant of operation

Under every command the entries of the cache stand, and the active segment stays within the line: commands that are
not about states have no hand in the cache and in what decides tracking, lines only grow at their end, and signals
are set only ahead of what has been passed.
-/

namespace BeamOptics

namespace Machine

variable {α : Type} [Scalar α]

/-- What holds of a machine at any time. -/
structure Sound (beam : ReferenceBeam α) (t : Machine α) : Prop where
  stands : ∀ entry ∈ t.cache, entry.Stands beam t.rig t.line
  within : ∀ s ∈ t.rig.accelerator.segment, s.last < t.line.length

namespace Sound

variable {beam : ReferenceBeam α} {t : Machine α}

theorem new (name : String) (line : Model α) (tracker : Tracker α) (plant : Plant α) :
    (new name line tracker plant).Sound beam where
  stands := fun _ h => absurd h List.not_mem_nil
  within := fun _ h => absurd h (by simp [Machine.new])

theorem of_cleared (h : t.Sound beam) {t' : Machine α} (hline : t'.line = t.line) (hcache : t'.cache = [])
    (hsegment : t'.rig.accelerator.segment = t.rig.accelerator.segment) : t'.Sound beam where
  stands := fun entry hentry => absurd (hcache ▸ hentry) List.not_mem_nil
  within := by
    rw [hsegment, hline]
    exact h.within

/-- A step that lets the line grow at most, and the elements that were passed act as before. -/
theorem of_through (h : t.Sound beam) {t' : Machine α} (hgrown : t.line.elements <+: t'.line.elements)
    (haccelerator : t'.rig.accelerator = t.rig.accelerator)
    (hthrough : ∀ entry ∈ t.cache, ∀ e ∈ t.line.elements.take entry.next, t'.rig.through e = t.rig.through e) :
    t'.Sound beam where
  stands := by
    intro entry hentry
    rw [cache, haccelerator] at hentry
    exact (h.stands entry hentry).transfer hgrown (hthrough entry hentry)
  within := by
    rw [haccelerator]
    exact fun s hs => Nat.lt_of_lt_of_le (h.within s hs) hgrown.length_le

theorem of_stands (h : t.Sound beam) {t' : Machine α} (hline : t'.line = t.line)
    (hregime : t'.rig.regime = t.rig.regime)
    (hstands : ∀ entry ∈ t'.cache, entry ∈ t.cache ∨ entry.Stands beam t.rig t.line)
    (hsegment : ∀ s ∈ t'.rig.accelerator.segment, s ∈ t.rig.accelerator.segment ∨ s.last < t.line.length) :
    t'.Sound beam where
  stands := by
    intro entry hentry
    have hold : entry.Stands beam t.rig t.line := (hstands entry hentry).elim (h.stands entry) id
    apply hold.transfer (hline ▸ List.prefix_rfl)
    intro e _
    rw [Rig.through_of_regime hregime]
  within := by
    intro s hs
    rw [hline]
    exact (hsegment s hs).elim (h.within s) id

theorem of_regime (h : t.Sound beam) {t' : Machine α} (hline : t'.line = t.line)
    (haccelerator : t'.rig.accelerator = t.rig.accelerator) (hregime : t'.rig.regime = t.rig.regime) :
    t'.Sound beam := by
  apply h.of_through (hline ▸ List.prefix_rfl) haccelerator
  intro _ _ e _
  rw [Rig.through_of_regime hregime]

/-! ### Steps -/

theorem afterStation (h : t.Sound beam) {β : Type} {a : Action Fault (Station α) β} (ha : a.Keeps Station.regime) :
    (t.afterStation a).Sound beam :=
  h.of_regime rfl (Rig.keeps_accelerator_onStation a t.rig) (Rig.keeps_onStation ha t.rig)

theorem afterPlant (h : t.Sound beam) {β : Type} {a : Action Fault (Plant α) β} (ha : a.Keeps Plant.fixtures) :
    (t.afterPlant a).Sound beam :=
  h.of_regime rfl rfl (Station.regime_of_fixtures (s := t.rig.station) (ha t.rig.plant))

theorem initialise (h : t.Sound beam) (states : Datum) : (t.afterRig (Rig.initialise beam states)).Sound beam := by
  refine h.of_stands rfl (Rig.keeps_initialise Station.steady_regime beam states t.rig) ?_ ?_
  · intro entry hentry
    rcases Rig.mem_initialise hentry with hold | ⟨b, hcreated, rfl⟩
    · exact .inl hold
    · exact .inr (.fresh hcreated)
  · intro s hs
    have hsegment := Rig.segment_initialise beam states t.rig
    exact .inl (hsegment ▸ hs)

theorem setSegment (h : t.Sound beam) (argument : SegmentArgument) :
    (t.afterRig (Rig.setSegment t.line argument)).Sound beam := by
  have hregime := Rig.keeps_setSegment Station.steady_regime t.line argument t.rig
  unfold Machine.afterRig at *
  cases hresolve : argument.resolve t.line with
  | error fault =>
    have hrun : (Rig.setSegment t.line argument).run t.rig = (.error fault, t.rig) := by
      rw [Rig.setSegment, hresolve]
      rfl
    rw [hrun]
    exact h
  | ok s =>
    refine h.of_stands rfl hregime ?_ ?_
    · intro entry hentry
      refine .inl ?_
      rw [Rig.setSegment, hresolve] at hentry
      exact hentry
    · intro s' hs'
      rw [Rig.setSegment, hresolve] at hs'
      obtain rfl : s = s' := Option.some.inj hs'
      exact .inr (SegmentArgument.last_lt_of_resolve hresolve)

theorem last_lt (h : t.Sound beam) {argument : SegmentArgument} {s : Segment}
    (hresolve : t.rig.accelerator.resolve t.line argument = .ok s) : s.last < t.line.length :=
  Rig.last_lt_of_resolve h.within hresolve

theorem stands_of_entry (h : t.Sound beam) {state : Datum} {n : Nat} {entry : CachedBunch α}
    (hentry : t.rig.accelerator.entry state = .ok (n, entry)) : entry.Stands beam t.rig t.line :=
  h.stands entry (List.mem_of_getElem? (Rig.getElem?_of_entry hentry))

theorem trackState (h : t.Sound beam) (state : Datum) (argument : SegmentArgument) :
    (t.afterRig (Rig.trackState t.line state argument)).Sound beam := by
  unfold Machine.afterRig
  rcases t.rig.unchanged_or_found t.line state argument with hsame | ⟨s, n, entry, hresolve, hentry⟩
  · rw [hsame]
    exact h
  · have hlast := h.last_lt hresolve
    have hstands := h.stands_of_entry hentry
    obtain ⟨rig', hrun, haccelerator, hregime⟩ := Rig.run_trackState hresolve hlast hentry hstands.copy_initial
    rw [hrun]
    refine h.of_stands rfl hregime ?_ ?_
    · intro entry' hentry'
      rw [Machine.cache, haccelerator] at hentry'
      rcases List.mem_or_eq_of_mem_set hentry' with hold | rfl
      · exact .inl hold
      · exact .inr (hstands.left hlast)
    · rw [haccelerator]
      exact fun s hs => .inl hs

theorem addElement (h : t.Sound beam) {e : Element α} {line : Model α} (hline : t.line.addElement e = .ok line) :
    Sound beam { t with line } :=
  h.of_through (Model.Adds.element e hline).grownTo.elements rfl fun _ _ _ _ => rfl

theorem write (h : t.Sound beam) {c : Channel α} {value : α} (hallowed : (Command.write c value).Allowed t) :
    ((Command.write c value).after beam t).Sound beam := by
  have hplant (s : Signals α) (hs : ∀ f : Element α, c.element.tag ≠ f.tag → s.strength f =
      t.rig.plant.signals.strength f) :
      Sound beam { t with rig := { t.rig with plant := { t.rig.plant with signals := s } } } := by
    refine h.of_through List.prefix_rfl rfl ?_
    intro entry hentry e he
    exact Pass.through_congr _ (hs e (hallowed entry hentry e he))
  by_cases hwritable : c.writable = true
  · have hrun : (c.write value).run t.rig.plant.signals =
        (.ok (), t.rig.plant.signals.setStrength c.element value) := by
      rw [Channel.write, if_pos hwritable]
      rfl
    simp only [Command.after, Machine.afterPlant, Action.run_focus, hrun]
    exact hplant _ fun f hf => Signals.strength_setStrength_of_ne _ value hf
  · have hrun : (c.write value).run t.rig.plant.signals = (.error (.readOnlyChannel c.id), t.rig.plant.signals) := by
      rw [Channel.write, if_neg hwritable]
      rfl
    simp only [Command.after, Machine.afterPlant, Action.run_focus, hrun]
    exact hplant _ fun _ _ => rfl

end Sound

/-- Every command keeps the invariant. -/
theorem Sound.after {beam : ReferenceBeam α} {t : Machine α} (h : t.Sound beam) {command : Command α}
    (hallowed : command.Allowed t) : (command.after beam t).Sound beam := by
  cases command with
  | initialise states => exact h.initialise states
  | clearCache => exact h.of_cleared rfl rfl rfl
  | setTracker tracker => exact h.of_cleared rfl rfl rfl
  | setIncremental flag =>
    exact h.of_stands rfl (Rig.keeps_setIncremental Station.steady_regime flag t.rig) (fun _ => .inl) (fun _ => .inl)
  | setSegment argument => exact h.setSegment argument
  | trackState state argument => exact h.trackState state argument
  | trackNewBunch =>
    exact h.of_regime rfl (Rig.keeps_accelerator_trackNewBunch t.line beam t.rig)
      (Rig.keeps_trackNewBunch Station.steady_regime t.line beam t.rig)
  | addElement e =>
    dsimp only [Command.after]
    cases hline : t.line.addElement e with
    | ok line => exact h.addElement hline
    | error fault => exact h
  | write c value => exact h.write hallowed
  | putBunch number load => exact h.afterPlant fun _ => rfl
  | setRange range => exact h.afterStation (Station.keeps_setRange Station.steady_regime range)
  | setInitial initial => exact h.afterStation (Station.keeps_setInitial Station.steady_regime initial)
  | trackInPlace bunch =>
    exact h.afterStation (Station.keeps_rideShared Station.steady_regime bunch Ride.keeps_fixtures_track)
  | trackCopy => exact h.afterStation (Station.keeps_trackCopy Station.steady_regime)
  | initStepper bunch => exact h.afterStation (Station.keeps_initStepper Station.steady_regime bunch)
  | step => exact h.afterStation (Station.keeps_step Station.steady_regime)
  | findOrbit decompose config momentum argument guess =>
    dsimp only [Command.after]
    cases argument.range t.line with
    | ok range => exact h.afterStation (OrbitSearch.keeps_regime_find decompose config momentum range guess)
    | error fault => exact h
  | findExcursion momentum start =>
    exact h.afterPlant (Rms.keeps_fixtures_excursion t.line t.rig.tracker.config momentum start)

theorem sound_of_reachable {beam : ReferenceBeam α} {t : Machine α} (h : t.Reachable beam) : t.Sound beam := by
  obtain ⟨name, line, tracker, plant, hreaches⟩ := h
  induction hreaches with
  | start => exact Sound.new name line tracker plant
  | next command _ hallowed ih => exact ih.after hallowed

end Machine

end BeamOptics
