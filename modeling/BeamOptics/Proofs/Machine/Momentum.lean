import BeamOptics.Proofs.Exact.Radiation
import BeamOptics.Proofs.Machine.Tracking

/-!
# The reference momentum in operation

Incremental tracking copies bunches that have been tracked, and a copy asks for a positive reference momentum. So it
differs from tracking from the start of the line by one fault at most. With mild losses, or with a reference that does
not move, the fault is ruled out; a ring that takes more from a bunch than it has shows the fault.
-/

namespace BeamOptics

theorem Bunch.copy_cases {α : Type} [Scalar α] (b : Bunch α) :
    b.copy = .ok b ∨ b.copy = .error .momentumNotPositive := by
  unfold copy make
  split
  · exact .inr rfl
  · exact .inl rfl

theorem Bunch.copy_of_pos {b : Bunch ℝ} (h : 0 < b.momentum) : b.copy = .ok b := by
  refine copy_eq_ok_iff.mpr ⟨?_, rfl⟩
  rw [Scalar.le_real]
  exact decide_eq_false (not_le.mpr h)

theorem Bunch.copy_of_nonpos {b : Bunch ℝ} (h : b.momentum ≤ 0) : b.copy = .error .momentumNotPositive := by
  rw [copy, make, Scalar.le_real, decide_eq_true h]
  rfl

/-- Tracking a standing entry through a segment ends as tracking its initial bunch from the start of the line does, or
because a bunch on the way cannot be copied. -/
theorem CachedBunch.Stands.tracked_or_not_positive {α : Type} [Scalar α] {beam : ReferenceBeam α} {rig : Rig α}
    {m : Model α} {entry : CachedBunch α} (h : entry.Stands beam rig m) {s : Segment} (hlast : s.last < m.length) :
    rig.tracked m entry s = rig.transport (m.part 0 (s.last + 1)) entry.initial ∨
      rig.tracked m entry s = .error .momentumNotPositive := by
  have hordered := s.ordered
  unfold Rig.tracked
  split
  · rw [rig.transport_append m (Nat.le_succ_of_le hordered) (by omega)]
    rcases (entry.base s.first).bunch.copy_cases with hcopy | hcopy
    · rw [← h.bunch_brought fun _ => hcopy]
      cases rig.brought m entry s.first with
      | error fault => exact .inl rfl
      | ok entry' =>
        change (entry'.bunch.copy >>= _) = rig.transport _ entry'.bunch ∨ (entry'.bunch.copy >>= _) = _
        rcases entry'.bunch.copy_cases with hcopy' | hcopy' <;> rw [hcopy']
        · exact .inl rfl
        · exact .inr rfl
    · refine .inr ?_
      unfold Rig.brought
      split
      · change ((entry.base s.first).bunch.copy >>= _) = _
        rw [hcopy]
        rfl
      · rw [hcopy]
        rfl
  · rw [h.copy_initial]
    exact .inl rfl

/-- What was tracked through the gap is copied, and a momentum that is not positive ends the call. -/
theorem CachedBunch.Stands.tracked_of_gap_not_positive {α : Type} [Scalar α] {beam : ReferenceBeam α} {rig : Rig α}
    {m : Model α} {entry : CachedBunch α} (h : entry.Stands beam rig m) {s : Segment}
    (hincremental : rig.accelerator.incremental = true)
    (hbase : (entry.base s.first).bunch.copy = .ok (entry.base s.first).bunch) {b : Bunch α}
    (hgap : rig.transport (m.part 0 s.first) entry.initial = .ok b) (hcopy : b.copy = .error .momentumNotPositive) :
    rig.tracked m entry s = .error .momentumNotPositive := by
  have hbunch := h.bunch_brought fun _ => hbase
  rw [hgap] at hbunch
  rw [Rig.tracked, if_pos hincremental]
  cases hbrought : rig.brought m entry s.first with
  | error fault =>
    rw [hbrought] at hbunch
    cases hbunch
  | ok entry' =>
    rw [hbrought] at hbunch
    obtain rfl : entry'.bunch = b := Except.ok.inj hbunch
    change (entry'.bunch.copy >>= _) = _
    rw [hcopy]
    rfl

namespace Machine

/-- Processes attached to the tracker. -/
def attached {α : Type} (t : Machine α) : List (BeamProcess α) := t.rig.plant.processesOf t.rig.tracker.processes

/-- What a call ends in, for a segment and an entry that it finds. -/
theorem outcome_trackState {α : Type} [Scalar α] {beam : ReferenceBeam α} {t : Machine α} (h : t.Sound beam)
    {state : Datum} {argument : SegmentArgument} {s : Segment} {n : Nat} {entry : CachedBunch α}
    (hresolve : t.rig.accelerator.resolve t.line argument = .ok s)
    (hentry : t.rig.accelerator.entry state = .ok (n, entry)) :
    ((Rig.trackState t.line state argument).run t.rig).1 = t.rig.tracked t.line entry s := by
  obtain ⟨rig', hrun, -, -⟩ :=
    Rig.run_trackState hresolve (h.last_lt hresolve) hentry (h.stands_of_entry hentry).copy_initial
  rw [hrun]

/-- What the elements before a segment maintain, the bunches have that are tracked to places before it. -/
theorem maintained_direct {α : Type} [Scalar α] {P : Bunch α → Prop} {beam : ReferenceBeam α} {t : Machine α}
    {entry : CachedBunch α} (h : entry.Stands beam t.rig t.line) {first : Nat}
    (hthrough : ∀ e ∈ t.line.elements.take first, Maintains P (t.rig.through e)) (hinitial : P entry.initial)
    {stop : Nat} (hstop : stop ≤ first) {b : Bunch α} (hdirect : t.direct entry stop = .ok b) : P b := by
  rw [direct_eq h] at hdirect
  refine Maintains.transport (fun e he => hthrough e ?_) _ b hdirect hinitial
  exact (List.take_sublist_take_left hstop).subset he

theorem direct_of_maintained {P : Bunch ℝ → Prop} {beam : ReferenceBeam ℝ} {t : Machine ℝ} (h : t.Sound beam)
    {state : Datum} {argument : SegmentArgument} {s : Segment} {n : Nat} {entry : CachedBunch ℝ}
    (hresolve : t.rig.accelerator.resolve t.line argument = .ok s)
    (hentry : t.rig.accelerator.entry state = .ok (n, entry))
    (hthrough : ∀ e ∈ t.line.elements.take s.first, Maintains P (t.rig.through e)) (hinitial : P entry.initial)
    (hpositive : ∀ b, P b → 0 < b.momentum) :
    ((Rig.trackState t.line state argument).run t.rig).1 = t.direct entry (s.last + 1) := by
  have hstands := h.stands_of_entry hentry
  rw [outcome_trackState h hresolve hentry, direct_eq hstands]
  refine hstands.tracked (h.last_lt hresolve) fun stop hstop b hb => ?_
  rw [← direct_eq hstands] at hb
  have hmomentum := hpositive b (maintained_direct hstands hthrough hinitial hstop hb)
  exact (Bunch.copy_eq_ok_iff.mp (Bunch.copy_of_pos hmomentum)).1

/-- A slice leaves the reference momentum positive unless the momentum follows a loss of all that the particles have.
So it stays positive along elements in which particles up to a limit cannot lose all they have, and copies succeed
there. In a machine that operation has led to, an incremental call ends as tracking from the start of the line does,
or because a bunch on the way cannot be copied; and only as the former if the reference does not move or the elements
before the segment are moderate in this sense. -/
theorem reference_momentum_survives_moderate_loss {beam : ReferenceBeam ℝ} {t : Machine ℝ}
    (hreachable : t.Reachable beam) :
    (∀ (r : Radiation ℝ) (e : Element ℝ) (ds : ℝ) (b b' : Bunch ℝ), r.act e ds b = .ok b' → 0 < b.momentum →
      (0 < b'.momentum ↔
        (r.rereference = true → Radiation.Radiates e ds b → Radiation.totalLoss e ds b < b.totalMomentum))) ∧
    (∀ (processes : List (BeamProcess ℝ)) (signals : Signals ℝ) (limit : ℝ) (index : Nat)
      (elements : List (Element ℝ)) (b : Bunch ℝ), (∀ p ∈ processes, p.IsSet) →
      (∀ e ∈ elements, Pass.Moderate processes limit e) → b.Bounded limit →
      ∃ b', Pass.along processes signals index elements b = .ok b' ∧ b'.Bounded limit ∧ b'.copy = .ok b') ∧
    ∀ (state : Datum) (argument : SegmentArgument) (s : Segment) (n : Nat) (entry : CachedBunch ℝ),
      t.rig.accelerator.resolve t.line argument = .ok s → t.rig.accelerator.entry state = .ok (n, entry) →
      (((Rig.trackState t.line state argument).run t.rig).1 = t.direct entry (s.last + 1) ∨
        ((Rig.trackState t.line state argument).run t.rig).1 = .error .momentumNotPositive) ∧
      ((∀ p ∈ t.attached, p.rereferences = false) ∨
        (∃ limit, entry.initial.Bounded limit ∧
          ∀ e ∈ t.line.elements.take s.first, Pass.Moderate t.attached limit e) →
        ((Rig.trackState t.line state argument).run t.rig).1 = t.direct entry (s.last + 1)) := by
  refine ⟨fun r e ds b b' hact hpositive => r.momentum_pos_iff e ds hact hpositive, ?_, ?_⟩
  · intro processes signals limit index elements b hset hmoderate hbounded
    obtain ⟨b', halong⟩ := Pass.exists_along hset signals index elements b
    have hmaintains := Maintains.along (fun e he => Pass.maintains_bounded_through (hmoderate e he) signals) index
    have hbounded' := hmaintains b b' halong hbounded
    exact ⟨b', halong, hbounded', Bunch.copy_of_pos hbounded'.positive⟩
  · intro state argument s n entry hresolve hentry
    have hsound := sound_of_reachable hreachable
    have hstands := hsound.stands_of_entry hentry
    refine ⟨?_, ?_⟩
    · rw [outcome_trackState hsound hresolve hentry, direct_eq hstands]
      exact hstands.tracked_or_not_positive (hsound.last_lt hresolve)
    · rintro (hfixed | ⟨limit, hbounded, hmoderate⟩)
      · have hinitial : 0 < entry.initial.momentum := by
          have hcopy := (Bunch.copy_eq_ok_iff.mp hstands.copy_initial).1
          rw [Scalar.le_real] at hcopy
          exact not_le.mp (of_decide_eq_false hcopy)
        exact direct_of_maintained hsound hresolve hentry
          (fun e _ => Pass.maintains_momentum_through hfixed entry.initial.momentum _ e) rfl
          fun b hb => hb ▸ hinitial
      · exact direct_of_maintained hsound hresolve hentry
          (fun e he => Pass.maintains_bounded_through (hmoderate e he) _) hbounded fun b hb => hb.positive

end Machine

/-! ### A ring of one bend -/

namespace HotRing

noncomputable def bend : Element ℝ := ⟨0, "B", "SectorBend", 1, .bend 1 0⟩

noncomputable def line : Model ℝ where
  name := "ring"
  elements := [bend, ⟨1, "End", "Marker", 0, .marker⟩]

/-- Radiation that moves the reference momentum. -/
noncomputable def radiation : BeamProcess ℝ := .radiation ⟨1, 0, true⟩

/-- A beam on the axis. -/
noncomputable def beam (momentum : ℝ) : ReferenceBeam ℝ := ⟨momentum, 1, 0⟩

noncomputable def bunch (momentum : ℝ) : Bunch ℝ := ⟨momentum, 1, [0]⟩

noncomputable def ready (momentum : ℝ) : Machine ℝ :=
  (Command.initialise (.int 1)).after (beam momentum)
    (.new "hot" line { processes := [0] } { processes := ⟨[(0, radiation)]⟩ })

theorem reachable_ready (momentum : ℝ) : (ready momentum).Reachable (beam momentum) :=
  ⟨"hot", line, _, _, .next (.initialise (.int 1)) .start trivial⟩

theorem attached_ready (momentum : ℝ) : (ready momentum).attached = [radiation] := by
  have hregime := Rig.keeps_initialise Station.steady_regime (beam momentum) (.int 1)
    (Machine.new "hot" line { processes := [0] } { processes := ⟨[(0, radiation)]⟩ }).rig
  exact congrArg Prod.snd hregime

theorem isSet_radiation : ∀ p ∈ [radiation], p.IsSet := List.forall_mem_singleton.mpr (.inr le_rfl)

theorem stepCount_radiation (e : Element ℝ) (h : e.sliceable = true) : Pass.stepCount [radiation] e = .ok 1 :=
  Pass.stepCount_fixedSteps ⟨1, 0, true⟩ 1 h

theorem createBunch_beam {momentum : ℝ} (h : 0 < momentum) :
    Rig.createBunch (beam momentum) = .ok (bunch momentum) := by
  refine Bunch.make_eq_ok_iff.mpr ⟨?_, rfl⟩
  rw [Scalar.le_real]
  exact decide_eq_false (not_le.mpr h)

theorem entry_ready {momentum : ℝ} (h : 0 < momentum) :
    (ready momentum).rig.accelerator.entry (.int 0) = .ok (0, .fresh (bunch momentum)) := by
  have haccelerator : (ready momentum).rig.accelerator = _ :=
    Rig.accelerator_initialise_int (createBunch_beam h) 1 _
  refine Rig.entry_eq_ok_iff.mpr ⟨rfl, ?_⟩
  rw [haccelerator]
  rfl

def last : Segment := ⟨1, 1, le_rfl⟩

theorem resolve_ready (momentum : ℝ) :
    (ready momentum).rig.accelerator.resolve (ready momentum).line (.segment last) = .ok last := rfl

theorem curvature_bend : bend.curvature = 1 := div_one (1 : ℝ)

theorem moderate_bend : Pass.Moderate [radiation] 1 bend where
  implicit := rfl
  length := zero_le_one
  loss n hn := by
    obtain rfl : 1 = n := Except.ok.inj ((stepCount_radiation bend rfl).symm.trans hn)
    have hlength : bend.length = 1 := rfl
    rw [curvature_bend, hlength]
    simpa using Scalar.radiation_lt_one

theorem bounded_bunch : (bunch 1).Bounded 1 where
  positive := one_pos
  reference := le_rfl
  particles := by
    refine List.forall_mem_singleton.mpr ?_
    change 0 < 1 + (0 : ℝ) ∧ 1 * (1 + (0 : ℝ)) ≤ 1
    norm_num

/-- At one GeV the bend is moderate, and a call for its end succeeds as tracking from the start does. -/
theorem reference_momentum_survives_in_the_ring :
    (∃ b, Pass.along [radiation] { } 0 [bend] (bunch 1) = .ok b ∧ b.Bounded 1 ∧ b.copy = .ok b) ∧
      ((Rig.trackState (ready 1).line (.int 0) (.segment last)).run (ready 1).rig).1 =
        (ready 1).direct (.fresh (bunch 1)) 2 := by
  obtain ⟨-, halong, hoperation⟩ := Machine.reference_momentum_survives_moderate_loss (reachable_ready 1)
  refine ⟨halong _ _ 1 0 _ _ isSet_radiation (List.forall_mem_singleton.mpr moderate_bend) bounded_bunch, ?_⟩
  obtain ⟨-, hagrees⟩ := hoperation (.int 0) (.segment last) last 0 _ (resolve_ready 1) (entry_ready one_pos)
  refine hagrees (.inr ⟨1, bounded_bunch, ?_⟩)
  rw [attached_ready]
  exact List.forall_mem_singleton.mpr moderate_bend

/-! At fifty GeV a particle on the axis loses more in the bend than it has. -/

theorem totalMomentum_le_totalLoss {b : Bunch ℝ} (hmomentum : b.momentum = 50)
    (hparticles : b.particles.map PhaseVector.dp = [0]) :
    b.totalMomentum ≤ Radiation.totalLoss bend 1 b := by
  obtain ⟨v, hv, hdp⟩ := List.map_eq_singleton_iff.mp hparticles
  have hconstant : (1 : ℝ) ≤ Scalar.radiation * 50 ^ 3 := by
    change (1 : ℝ) ≤ 8.846e-5 / (2 * Real.pi) * 50 ^ 3
    have hpi := Real.pi_le_four
    have hpos := Real.pi_pos
    rw [div_mul_eq_mul_div, le_div_iff₀ (by positivity)]
    linarith
  rw [Bunch.totalMomentum, Radiation.totalLoss, hv, hmomentum, curvature_bend]
  simp only [List.map_cons, List.map_nil, List.sum_cons, List.sum_nil, hdp, Radiation.loss, Scalar.square]
  linarith

theorem momentum_of_act {b b' : Bunch ℝ} (hmomentum : b.momentum = 50)
    (hparticles : b.particles.map PhaseVector.dp = [0]) (h : radiation.act bend 1 b = .ok b') : b'.momentum ≤ 0 := by
  have hpositive : 0 < b.momentum := by
    rw [hmomentum]
    norm_num
  have hradiates : Radiation.Radiates bend 1 b := by
    refine ⟨rfl, one_ne_zero, fun hnil => ?_⟩
    rw [hnil] at hparticles
    cases hparticles
  have hlost := totalMomentum_le_totalLoss hmomentum hparticles
  refine not_lt.mp fun hleft => not_lt.mpr hlost ?_
  exact (Radiation.momentum_pos_iff _ _ _ (mapError_eq_ok_iff.mp h) hpositive).mp hleft rfl hradiates

/-- One process that asks for one step acts once, behind the map and the kick of the whole element. -/
theorem through_of_one_step {p : BeamProcess ℝ} {e : Element ℝ} (hcount : Pass.stepCount [p] e = .ok 1)
    {m : TransferMap ℝ} (hm : e.transferMap e.length = .ok m) (signals : Signals ℝ) (b : Bunch ℝ) :
    Pass.through [p] signals e b =
      p.act e e.length (b.mapParticles fun v => m.act v + e.kick (signals.strength e) e.length) := by
  have hwhole : e.length / (1 : Nat) = e.length := by rw [Nat.cast_one, div_one]
  have hordered : BeamProcess.inOrder BeamProcess.kind [p] = [p] := by cases p <;> rfl
  rw [← hwhole] at hm
  rw [Pass.through_eq_inSlices hcount, Pass.inSlices_eq_reach (Scalar.overCount_real one_ne_zero e.length) hm, hwhole, hordered]
  change (Pass.slice [p] e m (e.kick (signals.strength e) e.length) e.length >>= fun _ => pure ()).reach b = _
  rw [Action.reach_bind]
  change ((Pass.applyAll e e.length [p]).reach _ >>= _) = _
  rw [Pass.reach_applyAll_cons]
  cases p.act e e.length (b.mapParticles fun v => m.act v + e.kick (signals.strength e) e.length) <;> rfl

theorem exists_through_bend (signals : Signals ℝ) :
    ∃ b, Pass.through [radiation] signals bend (bunch 50) = .ok b ∧ b.momentum ≤ 0 := by
  obtain ⟨m, hm⟩ := bend.exists_transferMap bend.length
  rw [through_of_one_step (stepCount_radiation bend rfl) hm]
  obtain ⟨b, hact⟩ := radiation.exists_act bend bend.length
    ((bunch 50).mapParticles fun v => m.act v + bend.kick (signals.strength bend) bend.length)
  have hdp : ((bunch 50).mapParticles fun v => m.act v + bend.kick (signals.strength bend) bend.length).particles.map
      PhaseVector.dp = [0] := congrArg (fun a => [a]) (Element.dp_act_add_kick rfl hm _ 0)
  exact ⟨b, hact, momentum_of_act rfl hdp hact⟩

theorem transport_ready (momentum : ℝ) (r : Range ℝ) :
    (ready momentum).rig.transport r = r.transport [radiation] (ready momentum).rig.plant.signals := by
  rw [← attached_ready momentum]
  rfl

/-- A call for the end of the line first fills the gap, and then cannot copy what it has. Tracking from the start does
not ask for a copy on the way, and succeeds. -/
theorem ring_stops_incremental_tracking :
    ((Rig.trackState (ready 50).line (.int 0) (.segment last)).run (ready 50).rig).1 = .error .momentumNotPositive ∧
      (∃ b, (ready 50).direct (.fresh (bunch 50)) 1 = .ok b ∧ b.momentum ≤ 0 ∧ b.copy = .error .momentumNotPositive) ∧
      ∃ b, (ready 50).direct (.fresh (bunch 50)) 2 = .ok b := by
  have hpositive : (0 : ℝ) < 50 := by norm_num
  have hsound := Machine.sound_of_reachable (reachable_ready 50)
  have hentry := entry_ready hpositive
  have hstands := hsound.stands_of_entry hentry
  have hincremental : (ready 50).rig.accelerator.incremental = true :=
    congrArg Accelerator.incremental (Rig.accelerator_initialise_int (createBunch_beam hpositive) 1 _)
  obtain ⟨b, hthrough, hmomentum⟩ := exists_through_bend (ready 50).rig.plant.signals
  have hgap : (ready 50).rig.transport ((ready 50).line.part 0 1) (bunch 50) = .ok b := by
    have halong : Pass.along [radiation] (ready 50).rig.plant.signals 0 [bend] (bunch 50) = .ok b := by
      rw [Pass.along, hthrough]
      rfl
    rw [transport_ready]
    exact mapError_eq_ok_iff.mpr halong
  have hcopy : b.copy = .error .momentumNotPositive := Bunch.copy_of_nonpos hmomentum
  refine ⟨?_, ⟨b, (Machine.direct_eq hstands 1).trans hgap, hmomentum, hcopy⟩, ?_⟩
  · rw [Machine.outcome_trackState hsound (resolve_ready 50) hentry]
    exact hstands.tracked_of_gap_not_positive hincremental hstands.copy_initial hgap hcopy
  · obtain ⟨b', halong⟩ := Pass.exists_along isSet_radiation (ready 50).rig.plant.signals 0 line.elements (bunch 50)
    refine ⟨b', ?_⟩
    rw [Machine.direct_eq hstands, transport_ready]
    exact mapError_eq_ok_iff.mpr halong

end HotRing

end BeamOptics
