import BeamOptics.Proofs.Machine.Invariant
import BeamOptics.Proofs.Scalar.Digits

/-!
# Tracking in operation

What tracking a state ends in, and what it leaves, in any machine that operation can lead to. The cache changes how
far a bunch has to be tracked; it has no part in where tracking ends.
-/

namespace BeamOptics

namespace CachedBunch

variable {α : Type}

def rightBefore (first : Nat) (b initial : Bunch α) : CachedBunch α :=
  ⟨if first = 0 then none else some (first - 1), b, initial⟩

theorem next_rightBefore (first : Nat) (b initial : Bunch α) : (rightBefore first b initial).next = first := by
  cases first <;> rfl

theorem eq_rightBefore (entry : CachedBunch α) : entry = rightBefore entry.next entry.bunch entry.initial := by
  obtain ⟨_ | k, bunch, initial⟩ := entry <;> rfl

end CachedBunch

def Accelerator.withEntry {α : Type} (a : Accelerator α) (n : Nat) (entry : CachedBunch α) : Accelerator α :=
  { a with cache := a.cache.set n entry }

namespace Machine

variable {α : Type} [Scalar α]

/-! ### Tracking without the cache -/

/-- What tracking a copy of an entry's initial bunch through the elements before an index ends in, once and from the
start of the line. -/
def direct (t : Machine α) (entry : CachedBunch α) (stop : Nat) : Except Fault (Bunch α) :=
  ((Rig.trackFrom (t.line.part 0 stop) entry.initial).run t.rig).1

/-- What tracking the gap between an entry and the start of a segment ends in, with the entry as it is if there is no
gap. -/
def gap (t : Machine α) (entry : CachedBunch α) (first : Nat) : Except Fault (Bunch α) :=
  if (entry.base first).isAt first then .ok (entry.base first).bunch
  else ((Rig.trackFrom (t.line.part (entry.base first).next first) (entry.base first).bunch).run t.rig).1

theorem direct_eq {beam : ReferenceBeam α} {t : Machine α} {entry : CachedBunch α}
    (h : entry.Stands beam t.rig t.line) (stop : Nat) :
    t.direct entry stop = t.rig.transport (t.line.part 0 stop) entry.initial := by
  rw [direct, Rig.outcome_trackFrom, h.copy_initial]
  rfl

theorem gap_eq (t : Machine α) (entry : CachedBunch α) (first : Nat) :
    t.gap entry first = CachedBunch.bunch <$> t.rig.brought t.line entry first := by
  unfold gap Rig.brought
  split
  · rfl
  · rw [Rig.outcome_trackFrom]
    cases (entry.base first).bunch.copy with
    | error fault => rfl
    | ok b =>
      change t.rig.transport _ b = CachedBunch.bunch <$> (t.rig.transport _ b >>= _)
      cases t.rig.transport (t.line.part (entry.base first).next first) b <;> rfl

/-- A gap that was tracked leaves the entry right before the segment, with the bunch that tracking from the start of
the line leads to. -/
theorem brought_of_gap {beam : ReferenceBeam α} {t : Machine α} {entry : CachedBunch α}
    (h : entry.Stands beam t.rig t.line) {first : Nat} (hfirst : first ≤ t.line.length) {b : Bunch α}
    (hgap : t.gap entry first = .ok b) :
    t.direct entry first = .ok b ∧ t.rig.brought t.line entry first = .ok (.rightBefore first b entry.initial) := by
  rw [gap_eq] at hgap
  cases hbrought : t.rig.brought t.line entry first with
  | error fault =>
    rw [hbrought] at hgap
    cases hgap
  | ok entry' =>
    rw [hbrought] at hgap
    obtain rfl : entry'.bunch = b := Except.ok.inj hgap
    obtain ⟨hstands, hnext, hinitial⟩ := h.brought hfirst hbrought
    have hreached := hstands.reached
    rw [hnext, hinitial] at hreached
    have hentry := entry'.eq_rightBefore
    rw [hnext, hinitial] at hentry
    exact ⟨(direct_eq h first).trans hreached, congrArg Except.ok hentry⟩

/-! ### The outcome -/

/-- Tracking a state ends exactly as tracking a copy of its initial bunch once from the start of the line to the end
of the segment, in every machine that operation leads to, as long as the bunches on the way can be copied. -/
theorem trackState_agrees_with_origin {beam : ReferenceBeam α} {t : Machine α} (h : t.Reachable beam)
    {state : Datum} {argument : SegmentArgument} {s : Segment} {n : Nat} {entry : CachedBunch α}
    (hresolve : t.rig.accelerator.resolve t.line argument = .ok s)
    (hentry : t.rig.accelerator.entry state = .ok (n, entry))
    (hpositive : ∀ stop ≤ s.first, ∀ b, t.direct entry stop = .ok b → Scalar.le b.momentum 0 = false) :
    ((Rig.trackState t.line state argument).run t.rig).1 = t.direct entry (s.last + 1) := by
  have hsound := sound_of_reachable h
  have hlast := hsound.last_lt hresolve
  have hstands := hsound.stands_of_entry hentry
  obtain ⟨rig', hrun, -, -⟩ := Rig.run_trackState hresolve hlast hentry hstands.copy_initial
  rw [hrun, direct_eq hstands]
  refine hstands.tracked hlast fun stop hstop b hb => hpositive stop hstop b ?_
  rw [direct_eq hstands]
  exact hb

end Machine

/-! ### A small machine -/

namespace SmallMachine

def corrector : Element Int := ⟨1, "XCor", "Corrector", 0, .corrector .x 3⟩

/-- A corrector between drifts; the last of them is too long for the bunch at the corrector's first strength. -/
def line : Model Int where
  name := "line"
  elements := [⟨0, "D0", "Drift", 1, .drift⟩, corrector, ⟨2, "D1", "Drift", 1, .drift⟩, ⟨3, "D2", "Drift", 5, .drift⟩,
    ⟨4, "End", "Marker", 0, .marker⟩]

def beam : ReferenceBeam Int := ⟨1, 1, 0⟩

/-- The segment of one element. -/
def spot (index : Nat) : Segment := ⟨index, index, Nat.le_refl index⟩

def ready : Machine Int :=
  (Command.initialise (.int 1)).after beam
    (.new "small" line { processes := [0] } { processes := ⟨[(0, .finiteness false)]⟩ })

theorem reachable_ready : ready.Reachable beam :=
  ⟨"small", line, _, _, .next (.initialise (.int 1)) .start trivial⟩

def initial : Bunch Int := ⟨1, 1, [0]⟩

def advanced : Machine Int := (Command.trackState (.int 0) (.segment ⟨2, 2, Nat.le_refl 2⟩)).after beam ready

theorem reachable_advanced : advanced.Reachable beam := by
  obtain ⟨name, line, tracker, plant, hreaches⟩ := reachable_ready
  exact ⟨name, line, tracker, plant, .next _ hreaches trivial⟩

def entry : CachedBunch Int := .rightBefore 2 ⟨1, 1, [⟨0, 3, 0, 0, 0, 0⟩]⟩ initial

end SmallMachine

namespace Machine

open SmallMachine in
theorem trackState_agrees_with_origin_small :
    ((Rig.trackState advanced.line (.int 0) (.segment ⟨3, 3, Nat.le_refl 3⟩)).run advanced.rig).1 =
      advanced.direct entry 4 := by
  refine trackState_agrees_with_origin (s := ⟨3, 3, Nat.le_refl 3⟩) (n := 0) reachable_advanced rfl rfl ?_
  have hmomentum : ∀ stop : Fin 4, (match advanced.direct entry stop with
      | .ok b => Scalar.le b.momentum 0
      | .error _ => false) = false := by decide
  intro stop hstop b hb
  have hstop' := hmomentum ⟨stop, Nat.lt_succ_of_le hstop⟩
  rw [hb] at hstop'
  exact hstop'

variable {α : Type} [Scalar α]

/-! ### The cache -/

/-- A successful incremental call finds a segment and an entry, and leaves the entry right before the segment. -/
theorem accelerator_of_success {beam : ReferenceBeam α} {t : Machine α} (h : t.Sound beam) {state : Datum}
    {argument : SegmentArgument} (hincremental : t.rig.accelerator.incremental = true) {b : Bunch α}
    (hsuccess : ((Rig.trackState t.line state argument).run t.rig).1 = .ok b) :
    ∃ s n entry b', t.rig.accelerator.resolve t.line argument = .ok s ∧
      t.rig.accelerator.entry state = .ok (n, entry) ∧ t.direct entry s.first = .ok b' ∧
      ((Rig.trackState t.line state argument).run t.rig).2.accelerator =
        t.rig.accelerator.withEntry n (.rightBefore s.first b' entry.initial) := by
  obtain ⟨s, n, entry, hresolve, hentry⟩ := Rig.found_of_trackState (Action.run_eq_of_fst hsuccess)
  have hordered := s.ordered
  have hlast := h.last_lt hresolve
  have hstands := h.stands_of_entry hentry
  obtain ⟨rig', hrun, haccelerator, -⟩ := Rig.run_trackState hresolve hlast hentry hstands.copy_initial
  rw [hrun, Rig.tracked, if_pos hincremental] at hsuccess
  obtain ⟨entry', hbrought, -⟩ := bind_eq_ok_iff.mp hsuccess
  have hgap : t.gap entry s.first = .ok entry'.bunch := by
    rw [gap_eq, hbrought]
    rfl
  obtain ⟨hdirect, hright⟩ := brought_of_gap hstands (by omega) hgap
  refine ⟨s, n, entry, entry'.bunch, hresolve, hentry, hdirect, ?_⟩
  rw [hrun, haccelerator, Rig.left, if_pos hincremental, Rig.settled, hright]
  rfl

theorem accelerator_of_not_incremental {beam : ReferenceBeam α} {t : Machine α} (h : t.Sound beam)
    (hincremental : t.rig.accelerator.incremental = false) (state : Datum) (argument : SegmentArgument) :
    ((Rig.trackState t.line state argument).run t.rig).2.accelerator = t.rig.accelerator := by
  rcases t.rig.unchanged_or_found t.line state argument with hsame | ⟨s, n, entry, hresolve, hentry⟩
  · rw [hsame]
  · obtain ⟨rig', hrun, haccelerator, -⟩ := Rig.run_trackState hresolve (h.last_lt hresolve) hentry
      (h.stands_of_entry hentry).copy_initial
    rw [hrun, haccelerator, Rig.left, hincremental]
    exact Rig.set_cache_self (Rig.getElem?_of_entry hentry)

/-- In every machine that operation leads to, the bunch of an entry is the one that was created for it behind the
elements up to its location; commands leave what was created; and where an entry is after a successful incremental
call depends on nothing but its initial bunch and the start of the segment. -/
theorem cache_is_history_independent {beam : ReferenceBeam α} {t : Machine α} (h : t.Reachable beam) :
    (∀ entry ∈ t.cache, Rig.createBunch beam = .ok entry.initial ∧
      match entry.location with
      | none => entry.bunch = entry.initial
      | some k => k < t.line.length ∧ t.direct entry (k + 1) = .ok entry.bunch) ∧
    (∀ command : Command α, command.Allowed t → ∀ (n : Nat) (entry entry' : CachedBunch α), t.cache[n]? = some entry →
      (command.after beam t).cache[n]? = some entry' → entry'.initial = entry.initial) ∧
    (∀ state argument b, t.rig.accelerator.incremental = true →
      ((Rig.trackState t.line state argument).run t.rig).1 = .ok b →
      ∃ s n entry b', t.rig.accelerator.resolve t.line argument = .ok s ∧
        t.rig.accelerator.entry state = .ok (n, entry) ∧ t.direct entry s.first = .ok b' ∧
        ((Rig.trackState t.line state argument).run t.rig).2.accelerator =
          t.rig.accelerator.withEntry n (.rightBefore s.first b' entry.initial)) ∧
    (∀ state argument, t.rig.accelerator.incremental = false →
      ((Rig.trackState t.line state argument).run t.rig).2.accelerator = t.rig.accelerator) := by
  have hsound := sound_of_reachable h
  refine ⟨?_, ?_, fun _ _ _ hincremental => accelerator_of_success hsound hincremental,
    fun state argument hincremental => accelerator_of_not_incremental hsound hincremental state argument⟩
  · intro entry hentry
    have hstands := hsound.stands entry hentry
    have hreached := hstands.reached
    have hwithin := hstands.within
    refine ⟨hstands.created, ?_⟩
    rw [← direct_eq hstands] at hreached
    cases hlocation : entry.location with
    | none =>
      rw [CachedBunch.next, hlocation, direct_eq hstands, Model.part_self] at hreached
      exact (Except.ok.inj hreached).symm
    | some k =>
      rw [CachedBunch.next, hlocation] at hreached hwithin
      exact ⟨hwithin, hreached⟩
  · intro command hallowed n entry entry' hentry hentry'
    have hcreated := (hsound.stands entry (List.mem_of_getElem? hentry)).created
    have hcreated' := ((hsound.after hallowed).stands entry' (List.mem_of_getElem? hentry')).created
    exact Except.ok.inj (hcreated'.symm.trans hcreated)

/-! ### Failures and repetition -/

open SmallMachine in
theorem cache_is_history_independent_small :
    advanced.direct entry 2 = .ok ⟨1, 1, [⟨0, 3, 0, 0, 0, 0⟩]⟩ ∧
      ∃ s n found b', ready.rig.accelerator.resolve ready.line (.segment ⟨2, 2, Nat.le_refl 2⟩) = .ok s ∧
        ready.rig.accelerator.entry (.int 0) = .ok (n, found) ∧ ready.direct found s.first = .ok b' ∧
        ((Rig.trackState ready.line (.int 0) (.segment ⟨2, 2, Nat.le_refl 2⟩)).run ready.rig).2.accelerator =
          ready.rig.accelerator.withEntry n (.rightBefore s.first b' found.initial) := by
  obtain ⟨hstands, -, -, -⟩ := cache_is_history_independent reachable_advanced
  obtain ⟨-, -, hincremental, -⟩ := cache_is_history_independent reachable_ready
  refine ⟨(hstands entry List.mem_cons_self).2.2, ?_⟩
  exact hincremental (.int 0) (.segment ⟨2, 2, Nat.le_refl 2⟩) ⟨1, 1, [⟨3, 3, 0, 0, 0, 0⟩]⟩ rfl rfl

end Machine

end BeamOptics
