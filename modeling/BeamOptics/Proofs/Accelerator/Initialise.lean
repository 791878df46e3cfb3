import BeamOptics.Proofs.Accelerator.Frame

/-!
# Fresh states

Initialisation leaves new entries only, all for the same created bunch; one that fails leaves entries that were
there before, or none.
-/

namespace BeamOptics

namespace Rig

variable {α : Type} [Scalar α]

theorem run_addStates {beam : ReferenceBeam α} {b : Bunch α} (hcreated : createBunch beam = .ok b) (count : Nat)
    (rig : Rig α) :
    (addStates beam count).run rig =
      (.ok (), { rig with accelerator :=
        { rig.accelerator with cache := rig.accelerator.cache ++ List.replicate count (.fresh b) } }) := by
  induction count generalizing rig with
  | zero => simp [addStates]
  | succ count ih =>
    have hstate : (onAccelerator (Action.update fun a => { a with cache := a.cache ++ [.fresh b] })).run rig =
        (.ok (), { rig with accelerator :=
          { rig.accelerator with cache := rig.accelerator.cache ++ [.fresh b] } }) := rfl
    rw [addStates, hcreated, Action.run_bind_of_ok (Action.run_lift _ _), Action.run_bind_of_ok hstate, ih]
    simp only [List.append_assoc, List.replicate_succ, List.singleton_append]

theorem mem_addStates {beam : ReferenceBeam α} {count : Nat} {rig : Rig α} {entry : CachedBunch α}
    (h : entry ∈ ((addStates beam count).run rig).2.accelerator.cache) :
    entry ∈ rig.accelerator.cache ∨ ∃ b, createBunch beam = .ok b ∧ entry = .fresh b := by
  cases hcreated : createBunch beam with
  | ok b =>
    rw [run_addStates hcreated] at h
    rcases List.mem_append.mp h with hold | hnew
    · exact .inl hold
    · exact .inr ⟨b, rfl, List.eq_of_mem_replicate hnew⟩
  | error fault =>
    cases count with
    | zero => exact .inl h
    | succ count =>
      rw [addStates, hcreated] at h
      exact .inl h

theorem keeps_segment_addStates (beam : ReferenceBeam α) (count : Nat) :
    (addStates beam count).Keeps fun rig => rig.accelerator.segment := by
  induction count with
  | zero => exact Action.keeps_pure _
  | succ count ih =>
    refine (Action.keeps_lift _).bind fun b => ?_
    refine Action.Keeps.bind ?_ fun _ => ih
    exact fun _ => rfl

omit [Scalar α] in
def cleared (rig : Rig α) : Rig α := { rig with accelerator := { rig.accelerator with cache := [] } }

/-- An initialisation leaves everything, or it has added some states to none. -/
theorem accelerator_initialise (beam : ReferenceBeam α) (states : Datum) (rig : Rig α) :
    ((initialise beam states).run rig).2.accelerator = rig.accelerator ∨
      ∃ count, ((initialise beam states).run rig).2.accelerator =
        ((addStates beam count).run rig.cleared).2.accelerator := by
  have hcount (count : Nat) :
      (do
        addStates beam count
        note (.initialised states.display)
        let a ← Action.ask Rig.accelerator
        pure (a.cache.map (·.bunch)) : Action Fault (Rig α) (List (Bunch α))).run rig.cleared |>.2.accelerator =
        ((addStates beam count).run rig.cleared).2.accelerator := by
    rcases hrun : (addStates beam count).run rig.cleared with ⟨fault | _, rig₁⟩
    · rw [Action.run_bind_of_error hrun]
    · rw [Action.run_bind_of_ok hrun]
      rfl
  unfold initialise
  cases SegmentArgument.compare .less states (.int 0) with
  | error fault => exact .inl rfl
  | ok negative =>
    cases negative with
    | true => exact .inl rfl
    | false =>
      have hwhole := hcount (states.whole?.getD 0).toNat
      refine .inr ?_
      cases states with
      | float x => exact ⟨0, rfl⟩
      | _ => exact ⟨_, hwhole⟩

theorem mem_initialise {beam : ReferenceBeam α} {states : Datum} {rig : Rig α} {entry : CachedBunch α}
    (h : entry ∈ ((initialise beam states).run rig).2.accelerator.cache) :
    entry ∈ rig.accelerator.cache ∨ ∃ b, createBunch beam = .ok b ∧ entry = .fresh b := by
  rcases accelerator_initialise beam states rig with hsame | ⟨count, hadded⟩
  · rw [hsame] at h
    exact .inl h
  · rw [hadded] at h
    rcases mem_addStates h with hold | hnew
    · exact absurd hold List.not_mem_nil
    · exact .inr hnew

/-- A successful initialisation leaves new entries only. -/
theorem fresh_of_initialise {beam : ReferenceBeam α} {states : Datum} {rig rig' : Rig α} {bunches : List (Bunch α)}
    (h : (initialise beam states).run rig = (.ok bunches, rig')) {entry : CachedBunch α}
    (hentry : entry ∈ rig'.accelerator.cache) : ∃ b, entry = .fresh b := by
  have hadded {count : Nat} (h : (do
      addStates beam count
      note (.initialised states.display)
      let a ← Action.ask Rig.accelerator
      pure (a.cache.map (·.bunch)) : Action Fault (Rig α) (List (Bunch α))).run rig.cleared = (.ok bunches, rig')) :
      ∃ b, entry = .fresh b := by
    obtain ⟨_, rig₁, hrun, h⟩ := Action.exists_of_run_bind h
    have hrest : rig'.accelerator = rig₁.accelerator := by
      refine Action.Keeps.of_run ((keeps_accelerator_note _).bind fun _ => ?_) h
      exact (Action.keeps_ask _).bind fun _ => Action.keeps_pure _
    have hmem : entry ∈ ((addStates beam count).run rig.cleared).2.accelerator.cache := by
      rwa [hrun, ← hrest]
    rcases mem_addStates hmem with hold | ⟨b, -, hfresh⟩
    · exact absurd hold List.not_mem_nil
    · exact ⟨b, hfresh⟩
  unfold initialise at h
  obtain ⟨negative, -, h⟩ := Action.exists_of_run_lift_bind h
  cases negative with
  | true => cases h
  | false =>
    obtain ⟨_, rig₁, hcleared, h⟩ := Action.exists_of_run_bind h
    obtain rfl : rig.cleared = rig₁ := congrArg Prod.snd hcleared
    cases states with
    | float x => cases h
    | _ => exact hadded h

theorem segment_initialise (beam : ReferenceBeam α) (states : Datum) (rig : Rig α) :
    ((initialise beam states).run rig).2.accelerator.segment = rig.accelerator.segment := by
  rcases accelerator_initialise beam states rig with hsame | ⟨count, hadded⟩
  · rw [hsame]
  · rw [hadded]
    exact keeps_segment_addStates beam count rig.cleared

theorem accelerator_initialise_int {beam : ReferenceBeam α} {b : Bunch α} (hcreated : createBunch beam = .ok b)
    (count : Nat) (rig : Rig α) :
    ((initialise beam (.int count)).run rig).2.accelerator =
      { rig.accelerator with cache := List.replicate count (.fresh b) } := by
  have hcompare : SegmentArgument.compare .less (.int count) (.int 0) = .ok false := by
    have hnotBelow : compare (count : Int) 0 ≠ .lt := by
      rw [ne_eq, Int.compare_eq_lt]
      omega
    have hrelate : Datum.relate .less (.int count) (.int 0) = .ok (some (compare (count : Int) 0) == some .lt) :=
      rfl
    have hholds : (some (compare (count : Int) 0) == some .lt) = false :=
      beq_false_of_ne fun h => hnotBelow (Option.some.inj h)
    rw [SegmentArgument.compare, hrelate, hholds]
    rfl
  unfold initialise
  rw [hcompare, Action.run_bind_of_ok (Action.run_lift _ _)]
  change ((addStates beam count >>= _).run rig.cleared).2.accelerator = _
  rw [Action.run_bind_of_ok (run_addStates hcreated count rig.cleared)]
  rfl

end Rig

end BeamOptics
