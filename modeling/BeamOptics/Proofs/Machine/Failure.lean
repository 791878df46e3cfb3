import BeamOptics.Proofs.Machine.Tracking

/-!
# Failures and repetition

What a failing call leaves behind. Tracking works on copies, so an entry is never caught half-way: it stays, goes
back to the start, or stands right before the segment, and a repeated call goes on from there.
-/

namespace BeamOptics

namespace Rig

variable {α : Type} [Scalar α]

theorem tracked_of_regime {rig rig' : Rig α} (hregime : rig'.regime = rig.regime)
    (hincremental : rig'.accelerator.incremental = rig.accelerator.incremental) : rig'.tracked = rig.tracked := by
  funext m entry s
  rw [tracked, tracked, hincremental, brought_of_regime hregime, transport_of_regime hregime]

theorem outcome_trackState_fresh {beam : ReferenceBeam α} {b : Bunch α} (hcreated : createBunch beam = .ok b)
    {rig : Rig α} {m : Model α} {argument : SegmentArgument} {s : Segment}
    (hresolve : rig.accelerator.resolve m argument = .ok s) (hlast : s.last < m.length) {state : Datum} {n : Nat}
    (hwhole : state.whole? = some (n : Int)) {count : Nat} (hcount : n < count) :
    ((trackState m state argument).run ((initialise beam (.int count)).run rig).2).1 =
      rig.tracked m (.fresh b) s := by
  have haccelerator := accelerator_initialise_int hcreated count rig
  have hregime := keeps_initialise Station.steady_regime beam (.int count) rig
  have hentry : ((initialise beam (.int count)).run rig).2.accelerator.entry state = .ok (n, .fresh b) := by
    rw [entry_eq_ok_iff, haccelerator]
    exact ⟨hwhole, by simp [hcount]⟩
  have hresolve' : ((initialise beam (.int count)).run rig).2.accelerator.resolve m argument = .ok s := by
    rw [haccelerator]
    exact hresolve
  obtain ⟨rig', hrun, -, -⟩ := run_trackState hresolve' hlast hentry (copy_of_createBunch hcreated)
  rw [hrun, tracked_of_regime hregime (by rw [haccelerator])]

end Rig

namespace Machine

variable {α : Type} [Scalar α]

/-- What an incremental call leaves when tracking the gap fails: the entry as it was, or a fresh one if the entry was
past the start of the segment. -/
theorem left_of_gap_error {t : Machine α} {entry : CachedBunch α} {s : Segment}
    (hincremental : t.rig.accelerator.incremental = true) {fault : Fault}
    (hgap : t.gap entry s.first = .error fault) :
    t.rig.left t.line entry s = if entry.isPast s.first then .fresh entry.initial else entry := by
  rw [gap_eq] at hgap
  rw [Rig.left, if_pos hincremental, Rig.settled]
  cases hbrought : t.rig.brought t.line entry s.first with
  | error fault' => rfl
  | ok entry' =>
    rw [hbrought] at hgap
    cases hgap

theorem left_of_gap_ok {beam : ReferenceBeam α} {t : Machine α} {entry : CachedBunch α}
    (h : entry.Stands beam t.rig t.line) {s : Segment} (hlast : s.last < t.line.length)
    (hincremental : t.rig.accelerator.incremental = true) {b : Bunch α} (hgap : t.gap entry s.first = .ok b) :
    t.direct entry s.first = .ok b ∧ t.rig.left t.line entry s = .rightBefore s.first b entry.initial := by
  have hordered := s.ordered
  obtain ⟨hdirect, hbrought⟩ := brought_of_gap h (by omega) hgap
  refine ⟨hdirect, ?_⟩
  rw [Rig.left, if_pos hincremental, Rig.settled, hbrought]

theorem outcome_of_stands {beam : ReferenceBeam α} {u : Machine α} {entry : CachedBunch α}
    (h : entry.Stands beam u.rig u.line) {argument : SegmentArgument} {s : Segment}
    (hresolve : u.rig.accelerator.resolve u.line argument = .ok s) (hlast : s.last < u.line.length)
    (hcopy : (entry.base s.first).next ≠ s.first →
      (entry.base s.first).bunch.copy = .ok (entry.base s.first).bunch)
    {state : Datum} {n : Nat} (hentry : u.rig.accelerator.entry state = .ok (n, entry)) {count : Nat}
    (hcount : n < count) :
    ((Rig.trackState u.line state argument).run u.rig).1 =
      ((Rig.trackState u.line state argument).run ((Rig.initialise beam (.int count)).run u.rig).2).1 := by
  obtain ⟨rig', hrun, -, -⟩ := Rig.run_trackState hresolve hlast hentry h.copy_initial
  rw [hrun, Rig.outcome_trackState_fresh h.created hresolve hlast (Rig.entry_eq_ok_iff.mp hentry).1 hcount]
  exact h.tracked_fresh hcopy

/-- A failing call changes nothing if it finds no segment or no entry. Otherwise it leaves all but the entry of its
state alone, and that entry as it was, or fresh if it was past the segment, when the gap is what fails, and right
before the segment when it is not. Unless it is the cached bunch itself that cannot be copied, the call repeated where
the elements that its entry has passed act as before ends as after an initialisation. -/
theorem failing_trackState_leaves_entry_whole {beam : ReferenceBeam α} {t : Machine α} (h : t.Reachable beam)
    {state : Datum} {argument : SegmentArgument} {fault : Fault} {rig' : Rig α}
    (hfails : (Rig.trackState t.line state argument).run t.rig = (.error fault, rig')) :
    ((∃ missing, t.rig.accelerator.resolve t.line argument = .error missing) ∨
      (∃ unknown, t.rig.accelerator.entry state = .error unknown) → rig' = t.rig) ∧
    ∀ s n entry, t.rig.accelerator.resolve t.line argument = .ok s →
      t.rig.accelerator.entry state = .ok (n, entry) →
      (t.rig.accelerator.incremental = false → rig'.accelerator = t.rig.accelerator) ∧
      (t.rig.accelerator.incremental = true →
        (∀ stopped, t.gap entry s.first = .error stopped →
          rig'.accelerator = t.rig.accelerator.withEntry n
            (if entry.isPast s.first then .fresh entry.initial else entry)) ∧
        (∀ b, t.gap entry s.first = .ok b → t.direct entry s.first = .ok b ∧
          rig'.accelerator = t.rig.accelerator.withEntry n (.rightBefore s.first b entry.initial))) ∧
      ∀ (u : Machine α) (entry' : CachedBunch α) (count : Nat),
        (entry.base s.first).bunch.copy = .ok (entry.base s.first).bunch →
        rig'.accelerator.cache[n]? = some entry' → u.rig.accelerator.cache[n]? = some entry' →
        t.line.elements <+: u.line.elements →
        (∀ e ∈ t.line.elements.take entry'.next, u.rig.through e = t.rig.through e) →
        u.rig.accelerator.resolve u.line argument = .ok s → n < count →
        ((Rig.trackState u.line state argument).run u.rig).1 =
          ((Rig.trackState u.line state argument).run ((Rig.initialise beam (.int count)).run u.rig).2).1 := by
  have hsound := sound_of_reachable h
  refine ⟨?_, ?_⟩
  · rintro (⟨missing, hmissing⟩ | ⟨unknown, hunknown⟩)
    · rw [Rig.run_trackState_of_resolve hmissing] at hfails
      exact (congrArg Prod.snd hfails).symm
    · cases hresolve : t.rig.accelerator.resolve t.line argument with
      | error missing =>
        rw [Rig.run_trackState_of_resolve hresolve] at hfails
        exact (congrArg Prod.snd hfails).symm
      | ok s =>
        rw [Rig.run_trackState_of_entry hresolve hunknown] at hfails
        exact (congrArg Prod.snd hfails).symm
  · intro s n entry hresolve hentry
    have hlast := hsound.last_lt hresolve
    have hstands := hsound.stands_of_entry hentry
    obtain ⟨rig'', hrun, haccelerator, -⟩ := Rig.run_trackState hresolve hlast hentry hstands.copy_initial
    obtain rfl : rig'' = rig' := congrArg Prod.snd (hrun.symm.trans hfails)
    refine ⟨?_, ?_, ?_⟩
    · intro hincremental
      have hsame := accelerator_of_not_incremental hsound hincremental state argument
      rwa [hfails] at hsame
    · intro hincremental
      refine ⟨fun stopped hgap => ?_, fun b hgap => ?_⟩
      · rw [haccelerator, left_of_gap_error hincremental hgap]
        rfl
      · obtain ⟨hdirect, hleft⟩ := left_of_gap_ok hstands hlast hincremental hgap
        rw [haccelerator, hleft]
        exact ⟨hdirect, rfl⟩
    · intro u entry' count hcopy hleft hu hgrown hsettings hresolve' hcount
      have hn : n < t.rig.accelerator.cache.length := (List.getElem?_eq_some_iff.mp (Rig.getElem?_of_entry hentry)).1
      rw [haccelerator, List.getElem?_set_self hn] at hleft
      obtain rfl := Option.some.inj hleft
      have hstands' := (hstands.left hlast).transfer hgrown hsettings
      have hentry' := Rig.entry_eq_ok_iff.mpr ⟨(Rig.entry_eq_ok_iff.mp hentry).1, hu⟩
      exact outcome_of_stands hstands' hresolve' (Nat.lt_of_lt_of_le hlast hgrown.length_le)
        (hstands.copy_left hlast hcopy) hentry' hcount

end Machine

/-- The small machine after a call that its last drift stops, with the corrector set to zero. -/
def SmallMachine.repaired : Machine Int :=
  (Command.write ⟨SmallMachine.corrector, .strength, true⟩ 0).after SmallMachine.beam
    ((Command.trackState (.int 0) (.segment ⟨4, 4, Nat.le_refl 4⟩)).after SmallMachine.beam SmallMachine.ready)

namespace Machine

open SmallMachine in
/-- The last drift stops the bunch; with the corrector set back before the state has passed it, the call gets through
as it does for a fresh state. -/
theorem failing_trackState_leaves_entry_whole_small :
    ((Rig.trackState ready.line (.int 0) (.segment ⟨4, 4, Nat.le_refl 4⟩)).run ready.rig).1 =
        .error (.nonFinite "D2" [0] false) ∧
      ((Rig.trackState ready.line (.int 0) (.segment ⟨4, 4, Nat.le_refl 4⟩)).run ready.rig).2.accelerator =
        ready.rig.accelerator.withEntry 0 (.fresh initial) ∧
      ((Rig.trackState repaired.line (.int 0) (.segment ⟨4, 4, Nat.le_refl 4⟩)).run repaired.rig).1 =
        ((Rig.trackState repaired.line (.int 0) (.segment ⟨4, 4, Nat.le_refl 4⟩)).run
          ((Rig.initialise beam (.int 1)).run repaired.rig).2).1 := by
  have hfails : (Rig.trackState ready.line (.int 0) (.segment ⟨4, 4, Nat.le_refl 4⟩)).run ready.rig =
      (.error (.nonFinite "D2" [0] false),
        ((Rig.trackState ready.line (.int 0) (.segment ⟨4, 4, Nat.le_refl 4⟩)).run ready.rig).2) := rfl
  obtain ⟨-, hfound⟩ := failing_trackState_leaves_entry_whole reachable_ready hfails
  obtain ⟨-, hincremental, hrepeated⟩ := hfound ⟨4, 4, Nat.le_refl 4⟩ 0 (.fresh initial) rfl rfl
  refine ⟨rfl, (hincremental rfl).1 (.nonFinite "D2" [0] false) rfl, ?_⟩
  exact hrepeated repaired (.fresh initial) 1 rfl rfl rfl List.prefix_rfl (fun e he => absurd he List.not_mem_nil)
    rfl Nat.one_pos

end Machine

end BeamOptics
