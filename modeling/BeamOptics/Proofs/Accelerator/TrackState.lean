import BeamOptics.Proofs.Accelerator.Frame

/-!
# Tracking a state

What a call leaves in the cache and what it ends in, without the notes and the station that it goes through. An
entry past the start of the segment counts as new; the gap is tracked from there, and the entry moves only when the
whole gap has been tracked.
-/

namespace BeamOptics

namespace CachedBunch

variable {α : Type}

/-- The entry from which a gap is tracked: the one at hand, or a new one if that has passed the segment's start. -/
def base (entry : CachedBunch α) (first : Nat) : CachedBunch α :=
  if entry.isPast first then fresh entry.initial else entry

@[simp] theorem initial_base (entry : CachedBunch α) (first : Nat) : (entry.base first).initial = entry.initial := by
  unfold base
  split <;> rfl

theorem isPast_iff {entry : CachedBunch α} {first : Nat} : entry.isPast first ↔ first < entry.next := by
  obtain ⟨_ | k, bunch, initial⟩ := entry
  · simp [isPast, next]
  · simp only [isPast, next, decide_eq_true_eq]
    omega

theorem next_base_le (entry : CachedBunch α) (first : Nat) : (entry.base first).next ≤ first := by
  unfold base
  split
  · exact Nat.zero_le first
  · rename_i hpast
    rw [isPast_iff] at hpast
    omega

theorem base_of_next_le {entry : CachedBunch α} {first : Nat} (h : entry.next ≤ first) : entry.base first = entry := by
  rw [base, if_neg]
  rw [isPast_iff]
  omega

@[simp] theorem next_advanced (entry : CachedBunch α) (location : Nat) (b : Bunch α) :
    (entry.advanced location b).next = location + 1 := rfl

end CachedBunch

namespace Rig

variable {α : Type} [Scalar α]

/-- An entry brought right before an index of the line, or the fault that tracking the gap ends in. -/
def brought (rig : Rig α) (m : Model α) (entry : CachedBunch α) (first : Nat) : Except Fault (CachedBunch α) :=
  if (entry.base first).isAt first then .ok (entry.base first)
  else do
    let b ← (entry.base first).bunch.copy
    let b ← rig.transport (m.part (entry.base first).next first) b
    pure ((entry.base first).advanced (first - 1) b)

/-- What is left of an entry when it should have been brought before an index. -/
def settled (rig : Rig α) (m : Model α) (entry : CachedBunch α) (first : Nat) : CachedBunch α :=
  match rig.brought m entry first with
  | .ok entry => entry
  | .error _ => entry.base first

/-- What tracking an entry through a segment ends in. -/
def tracked (rig : Rig α) (m : Model α) (entry : CachedBunch α) (s : Segment) : Except Fault (Bunch α) :=
  if rig.accelerator.incremental then do
    let entry ← rig.brought m entry s.first
    let b ← entry.bunch.copy
    rig.transport (m.part s.first (s.last + 1)) b
  else do
    let b ← entry.initial.copy
    rig.transport (m.part 0 (s.last + 1)) b

/-- What tracking through a segment leaves of an entry. -/
def left (rig : Rig α) (m : Model α) (entry : CachedBunch α) (s : Segment) : CachedBunch α :=
  if rig.accelerator.incremental then rig.settled m entry s.first else entry

theorem initial_brought {rig : Rig α} {m : Model α} {entry entry' : CachedBunch α} {first : Nat}
    (h : rig.brought m entry first = .ok entry') : entry'.initial = entry.initial := by
  unfold brought at h
  split at h
  · obtain rfl := Except.ok.inj h
    exact entry.initial_base first
  · obtain ⟨b, -, h⟩ := bind_eq_ok_iff.mp h
    obtain ⟨b', -, h⟩ := bind_eq_ok_iff.mp h
    obtain rfl := Except.ok.inj h
    exact entry.initial_base first

theorem initial_left (rig : Rig α) (m : Model α) (entry : CachedBunch α) (s : Segment) :
    (rig.left m entry s).initial = entry.initial := by
  unfold left settled
  split
  · cases hbrought : rig.brought m entry s.first with
    | error fault => exact entry.initial_base s.first
    | ok entry' => exact initial_brought hbrought
  · rfl

theorem brought_of_regime {rig rig' : Rig α} (h : rig'.regime = rig.regime) : rig'.brought = rig.brought := by
  funext m entry first
  rw [brought, brought, transport_of_regime h]

/-! ### Lookups -/

omit [Scalar α] in
theorem entry_eq_ok_iff {a : Accelerator α} {state : Datum} {n : Nat} {entry : CachedBunch α} :
    a.entry state = .ok (n, entry) ↔ state.whole? = some (n : Int) ∧ a.cache[n]? = some entry := by
  have hlookup : (do
      let n ← state.whole?
      let n ← if 0 ≤ n then some n.toNat else none
      let entry ← a.cache[n]?
      pure (n, entry)) = some (n, entry) ↔ state.whole? = some (n : Int) ∧ a.cache[n]? = some entry := by
    cases hwhole : state.whole? with
    | none => simp
    | some i =>
      by_cases hi : 0 ≤ i
      · obtain ⟨k, rfl⟩ := Int.eq_ofNat_of_zero_le hi
        by_cases hk : k = n
        · subst hk
          cases hentry : a.cache[k]? <;> simp [hentry]
        · have hne : ¬(k : Int) = (n : Int) := by omega
          cases hentry : a.cache[k]? <;> simp [hentry, hk, hne]
      · have hne : ¬i = (n : Int) := by omega
        simp [hi, hne]
  cases state with
  | list items => simp [Accelerator.entry, Datum.whole?]
  | mapping entries => simp [Accelerator.entry, Datum.whole?]
  | _ =>
    rw [← hlookup]
    simp only [Accelerator.entry]
    split
    · rename_i found hfound
      rw [hfound, Except.ok.injEq, Option.some.injEq]
    · rename_i hnone
      rw [hnone]
      exact ⟨nofun, nofun⟩

omit [Scalar α] in
theorem getElem?_of_entry {a : Accelerator α} {state : Datum} {n : Nat} {entry : CachedBunch α}
    (h : a.entry state = .ok (n, entry)) : a.cache[n]? = some entry := (entry_eq_ok_iff.mp h).2

omit [Scalar α] in
/-- When the active segment is within the line, so is any segment to work on. -/
theorem last_lt_of_resolve {a : Accelerator α} {m : Model α} (hwithin : ∀ s ∈ a.segment, s.last < m.length)
    {argument : SegmentArgument} {s : Segment} (hresolve : a.resolve m argument = .ok s) : s.last < m.length := by
  unfold Accelerator.resolve at hresolve
  split at hresolve
  · cases hsegment : a.segment with
    | none =>
      rw [hsegment] at hresolve
      cases hresolve
    | some active =>
      rw [hsegment] at hresolve
      obtain rfl := Except.ok.inj hresolve
      exact hwithin active hsegment
  · exact SegmentArgument.last_lt_of_resolve hresolve

omit [Scalar α] in
theorem set_cache_self {a : Accelerator α} {n : Nat} {entry : CachedBunch α} (h : a.cache[n]? = some entry) :
    { a with cache := a.cache.set n entry } = a := by
  obtain ⟨hn, rfl⟩ := List.getElem?_eq_some_iff.mp h
  rw [List.set_getElem_self]

/-! ### Runs -/

theorem run_rewind {rig : Rig α} {n : Nat} {entry : CachedBunch α} (hentry : rig.accelerator.cache[n]? = some entry)
    (hinitial : entry.initial.copy = .ok entry.initial) (state : String) (s : Segment) :
    ∃ rig', (rewind n entry state s).run rig = (.ok (entry.base s.first), rig') ∧
      rig'.accelerator = { rig.accelerator with cache := rig.accelerator.cache.set n (entry.base s.first) } ∧
      rig'.regime = rig.regime := by
  have hpristine (rig₁ : Rig α) (haccelerator : rig₁.accelerator = rig.accelerator)
      (hregime : rig₁.regime = rig.regime) : ∃ rig',
      (do
        let initial ← Action.lift entry.initial.copy
        let entry := { entry.rewound with bunch := initial }
        putEntry n entry
        pure entry : Action Fault (Rig α) (CachedBunch α)).run rig₁ = (.ok (.fresh entry.initial), rig') ∧
      rig'.accelerator = { rig.accelerator with cache := rig.accelerator.cache.set n (.fresh entry.initial) } ∧
      rig'.regime = rig.regime := by
    rw [hinitial]
    refine ⟨_, rfl, ?_, (keeps_putEntry Station.regime n _ rig₁).trans hregime⟩
    rw [← haccelerator]
    rfl
  unfold rewind CachedBunch.base
  by_cases hpast : entry.isPast s.first
  · rw [if_pos hpast, if_pos hpast]
    dsimp only
    split
    · exact hpristine _ (keeps_accelerator_note _ rig) (keeps_note Station.steady_regime _ rig)
    · exact hpristine rig rfl rfl
  · rw [if_neg hpast, if_neg hpast]
    exact ⟨rig, rfl, (set_cache_self hentry).symm, rfl⟩

theorem run_advance {rig : Rig α} {m : Model α} {n : Nat} {entry : CachedBunch α}
    (hentry : rig.accelerator.cache[n]? = some entry) (hinitial : entry.initial.copy = .ok entry.initial)
    (state : String) {s : Segment} (hlast : s.last < m.length) :
    ∃ rig', (advance m n entry state s).run rig = (rig.brought m entry s.first, rig') ∧
      rig'.accelerator =
        { rig.accelerator with cache := rig.accelerator.cache.set n (rig.settled m entry s.first) } ∧
      rig'.regime = rig.regime := by
  have hordered := s.ordered
  have hnext := entry.next_base_le s.first
  obtain ⟨rig₁, hrun₁, haccelerator₁, hregime₁⟩ := run_rewind hentry hinitial state s
  rw [advance, Action.run_bind_of_ok hrun₁, settled, brought]
  by_cases hat : (entry.base s.first).isAt s.first
  · rw [if_pos (by simp [hat]), if_pos hat]
    exact ⟨rig₁, rfl, haccelerator₁, hregime₁⟩
  · have hne : (entry.base s.first).next ≠ s.first := by simpa [CachedBunch.isAt] using hat
    have horigin : s.startsAtOrigin = false := by
      rw [Segment.startsAtOrigin, beq_eq_false_iff_ne]
      omega
    have hgap : m.subrange (entry.base s.first).next ((s.first : Int) - 1) =
        .ok (m.part (entry.base s.first).next s.first) := Model.subrange_pred_eq_part (by omega) (by omega)
    rw [if_neg (by simp [hat, horigin]), if_neg hat]
    obtain ⟨rig₂, hrun₂, haccelerator₂, hregime₂⟩ : ∃ rig₂,
        (note (.advancing state (entry.base s.first).next (s.first - 1))).run rig₁ = (.ok (), rig₂) ∧
          rig₂.accelerator = rig₁.accelerator ∧ rig₂.regime = rig₁.regime :=
      ⟨_, rfl, rfl, keeps_note Station.steady_regime _ rig₁⟩
    rw [Action.run_bind_of_ok hrun₂, hgap, Action.run_bind_of_ok (Action.run_lift _ _)]
    have houtcome := outcome_trackFrom (m.part (entry.base s.first).next s.first) (entry.base s.first).bunch rig₂
    have haccelerator := keeps_accelerator_trackFrom (m.part (entry.base s.first).next s.first)
      (entry.base s.first).bunch rig₂
    have hregime := keeps_trackFrom Station.steady_regime (m.part (entry.base s.first).next s.first)
      (entry.base s.first).bunch rig₂
    rw [transport_of_regime (hregime₂.trans hregime₁)] at houtcome
    rw [← bind_assoc, ← houtcome]
    rcases hrun : (trackFrom (m.part (entry.base s.first).next s.first) (entry.base s.first).bunch).run rig₂ with
      ⟨fault | b, rig₃⟩
    · rw [hrun] at haccelerator hregime
      refine ⟨rig₃, Action.run_bind_of_error hrun _, ?_, (hregime.trans hregime₂).trans hregime₁⟩
      exact (haccelerator.trans haccelerator₂).trans haccelerator₁
    · rw [hrun] at haccelerator hregime
      refine ⟨_, Action.run_bind_of_ok hrun _, ?_, ((keeps_putEntry Station.regime n _ rig₃).trans hregime).trans
        (hregime₂.trans hregime₁)⟩
      change { rig₃.accelerator with
          cache := rig₃.accelerator.cache.set n ((entry.base s.first).advanced (s.first - 1) b) } =
        { rig.accelerator with
          cache := rig.accelerator.cache.set n ((entry.base s.first).advanced (s.first - 1) b) }
      rw [show rig₃.accelerator = _ from (haccelerator.trans haccelerator₂).trans haccelerator₁]
      simp only [List.set_set]

theorem run_finish {m : Model α} {first last : Nat} (hordered : first ≤ last) (hlast : last < m.length)
    (b : Bunch α) (rig : Rig α) :
    ∃ rig', (do
      let r ← Action.lift (m.subrange first last)
      let b ← trackFrom r b
      note (.finalMomentum b.momentum)
      pure b : Action Fault (Rig α) (Bunch α)).run rig =
        ((do let b ← b.copy; rig.transport (m.part first (last + 1)) b), rig') ∧
      rig'.accelerator = rig.accelerator ∧ rig'.regime = rig.regime := by
  rw [Model.subrange_eq_part hordered hlast, Action.run_bind_of_ok (Action.run_lift _ _), ← outcome_trackFrom]
  have haccelerator := keeps_accelerator_trackFrom (m.part first (last + 1)) b rig
  have hregime := keeps_trackFrom Station.steady_regime (m.part first (last + 1)) b rig
  rcases hrun : (trackFrom (m.part first (last + 1)) b).run rig with ⟨fault | b', rig₁⟩
  · rw [hrun] at haccelerator hregime
    exact ⟨rig₁, Action.run_bind_of_error hrun _, haccelerator, hregime⟩
  · rw [hrun] at haccelerator hregime
    refine ⟨_, Action.run_bind_of_ok hrun _, ?_, (keeps_note Station.steady_regime _ rig₁).trans hregime⟩
    exact haccelerator

theorem run_trackState_of_resolve {rig : Rig α} {m : Model α} {argument : SegmentArgument} {fault : Fault}
    (hresolve : rig.accelerator.resolve m argument = .error fault) (state : Datum) :
    (trackState m state argument).run rig = (.error fault, rig) := by
  rw [trackState, Action.run_bind_of_ok (Action.run_ask _ _), hresolve]
  rfl

theorem run_trackState_of_entry {rig : Rig α} {m : Model α} {argument : SegmentArgument} {s : Segment}
    (hresolve : rig.accelerator.resolve m argument = .ok s) {state : Datum} {fault : Fault}
    (hentry : rig.accelerator.entry state = .error fault) :
    (trackState m state argument).run rig = (.error fault, rig) := by
  rw [trackState, Action.run_bind_of_ok (Action.run_ask _ _), hresolve,
    Action.run_bind_of_ok (Action.run_lift _ _), hentry]
  rfl

/-- A call that finds no segment or no entry leaves everything as it is. -/
theorem unchanged_or_found (rig : Rig α) (m : Model α) (state : Datum) (argument : SegmentArgument) :
    ((trackState m state argument).run rig).2 = rig ∨
      ∃ s n entry, rig.accelerator.resolve m argument = .ok s ∧ rig.accelerator.entry state = .ok (n, entry) := by
  cases hresolve : rig.accelerator.resolve m argument with
  | error fault =>
    rw [run_trackState_of_resolve hresolve]
    exact .inl rfl
  | ok s =>
    cases hentry : rig.accelerator.entry state with
    | error fault =>
      rw [run_trackState_of_entry hresolve hentry]
      exact .inl rfl
    | ok found => exact .inr ⟨s, found.1, found.2, rfl, rfl⟩

/-- A successful call has found a segment and an entry. -/
theorem found_of_trackState {rig rig' : Rig α} {m : Model α} {argument : SegmentArgument} {state : Datum} {b : Bunch α}
    (h : (trackState m state argument).run rig = (.ok b, rig')) :
    ∃ s n entry, rig.accelerator.resolve m argument = .ok s ∧ rig.accelerator.entry state = .ok (n, entry) := by
  rw [trackState, Action.run_bind_of_ok (Action.run_ask _ _)] at h
  obtain ⟨s, hresolve, h⟩ := Action.exists_of_run_lift_bind h
  obtain ⟨⟨n, entry⟩, hentry, -⟩ := Action.exists_of_run_lift_bind h
  exact ⟨s, n, entry, hresolve, hentry⟩

/-- What a call ends in and what it leaves, once segment and entry are found. -/
theorem run_trackState {rig : Rig α} {m : Model α} {argument : SegmentArgument} {s : Segment}
    (hresolve : rig.accelerator.resolve m argument = .ok s) (hlast : s.last < m.length) {state : Datum} {n : Nat}
    {entry : CachedBunch α} (hentry : rig.accelerator.entry state = .ok (n, entry))
    (hinitial : entry.initial.copy = .ok entry.initial) :
    ∃ rig', (trackState m state argument).run rig = (rig.tracked m entry s, rig') ∧
      rig'.accelerator = { rig.accelerator with cache := rig.accelerator.cache.set n (rig.left m entry s) } ∧
      rig'.regime = rig.regime := by
  have hcached := getElem?_of_entry hentry
  obtain ⟨rig₁, hrun₁, haccelerator₁, hregime₁⟩ : ∃ rig₁,
      (note (.trackingState state.display s)).run rig = (.ok (), rig₁) ∧
        rig₁.accelerator = rig.accelerator ∧ rig₁.regime = rig.regime :=
    ⟨_, rfl, rfl, keeps_note Station.steady_regime _ rig⟩
  rw [trackState, Action.run_bind_of_ok (Action.run_ask _ _), hresolve,
    Action.run_bind_of_ok (Action.run_lift _ _), hentry, Action.run_bind_of_ok (Action.run_lift _ _)]
  dsimp only
  rw [Action.run_bind_of_ok hrun₁, tracked, left]
  by_cases hincremental : rig.accelerator.incremental
  · rw [if_pos hincremental, if_pos hincremental, if_pos hincremental]
    rw [← haccelerator₁] at hcached
    obtain ⟨rig₂, hrun₂, haccelerator₂, hregime₂⟩ := run_advance hcached hinitial state.display hlast
    rw [brought_of_regime hregime₁] at hrun₂
    rw [settled, brought_of_regime hregime₁, ← settled, haccelerator₁] at haccelerator₂
    cases hbrought : rig.brought m entry s.first with
    | error fault =>
      rw [hbrought] at hrun₂
      exact ⟨rig₂, Action.run_bind_of_error hrun₂ _, haccelerator₂, hregime₂.trans hregime₁⟩
    | ok entry' =>
      rw [hbrought] at hrun₂
      obtain ⟨rig₃, hrun₃, haccelerator₃, hregime₃⟩ := run_finish s.ordered hlast entry'.bunch rig₂
      have hregime : rig₂.regime = rig.regime := hregime₂.trans hregime₁
      rw [transport_of_regime hregime] at hrun₃
      exact ⟨rig₃, (Action.run_bind_of_ok hrun₂ _).trans hrun₃, haccelerator₃.trans haccelerator₂,
        hregime₃.trans hregime⟩
  · rw [if_neg hincremental, if_neg hincremental, if_neg hincremental, set_cache_self hcached]
    obtain ⟨rig₂, hrun₂, haccelerator₂, hregime₂⟩ := run_finish (Nat.zero_le s.last) hlast entry.initial rig₁
    rw [transport_of_regime hregime₁] at hrun₂
    exact ⟨rig₂, hrun₂, haccelerator₂.trans haccelerator₁, hregime₂.trans hregime₁⟩

end Rig

end BeamOptics
