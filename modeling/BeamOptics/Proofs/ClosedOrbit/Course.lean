import BeamOptics.Proofs.ClosedOrbit.Newton
import BeamOptics.Proofs.ClosedOrbit.Site

/-!
# The course of a search

At the site of a search a step is decided by the orbit it starts from. The search makes these steps while its residual
is above the tolerance, as far as its budget goes.
-/

namespace BeamOptics

namespace OrbitSearch

variable {α : Type}

def Progress.after (p : Progress α) (step : Newton.Step α) : Progress α :=
  ⟨step.orbit, some step.residual, step.correction, p.steps + 1⟩

theorem steps_foldl_after (p : Progress α) (trail : List (Newton.Step α)) :
    (trail.foldl Progress.after p).steps = p.steps + trail.length := by
  induction trail generalizing p with
  | nil => rfl
  | cons step rest ih =>
    have hsteps : (p.after step).steps = p.steps + 1 := rfl
    rw [List.foldl_cons, ih, hsteps, List.length_cons]
    omega

theorem residual_foldl_after (p : Progress α) (trail : List (Newton.Step α)) :
    (trail.foldl Progress.after p).residual = (trail.getLast?.map Newton.Step.residual).or p.residual := by
  induction trail generalizing p with
  | nil => rfl
  | cons step rest ih =>
    rw [List.foldl_cons, ih]
    cases rest with
    | nil => rfl
    | cons second others => simp [List.getLast?_cons]

variable [Scalar α]

/-! ### Trails -/

/-- Steps made one after the other while the residual is above the tolerance. -/
inductive Trail (tolerance : α) (next : PhaseVector α → Except Fault (Newton.Step α)) :
    Progress α → List (Newton.Step α) → Prop
  | stay (p : Progress α) : Trail tolerance next p []
  | move {p : Progress α} {step : Newton.Step α} {rest : List (Newton.Step α)}
      (wanted : above tolerance p.residual = true) (made : next p.orbit = .ok step)
      (further : Trail tolerance next (p.after step) rest) : Trail tolerance next p (step :: rest)

namespace Trail

variable {tolerance : α} {next : PhaseVector α → Except Fault (Newton.Step α)} {p : Progress α}
  {trail : List (Newton.Step α)}

/-- Every step but the last was followed by another one, so its residual was above the tolerance. -/
theorem above_of_mem_dropLast (h : Trail tolerance next p trail) :
    ∀ step ∈ trail.dropLast, above tolerance (some step.residual) = true := by
  induction h with
  | stay p => exact nofun
  | move _ _ further ih =>
    cases further with
    | stay => exact nofun
    | move wanted made further =>
      intro step hstep
      rw [List.dropLast_cons_cons] at hstep
      rcases List.mem_cons.mp hstep with rfl | hlater
      · exact wanted
      · exact ih step hlater

/-- What every step leaves alone in its orbit is left alone by all of them. -/
theorem view_orbit {β : Type} (view : PhaseVector α → β)
    (hnext : ∀ {orbit step}, next orbit = .ok step → view step.orbit = view orbit)
    (h : Trail tolerance next p trail) : view (trail.foldl Progress.after p).orbit = view p.orbit := by
  induction h with
  | stay p => rfl
  | move _ made _ ih => exact ih.trans (hnext made)

/-- What is needed of an orbit to make a step from it holds where each step was made. -/
theorem forall_starts {P : PhaseVector α → Prop} (hnext : ∀ {orbit step}, next orbit = .ok step → P orbit)
    (h : Trail tolerance next p trail) : ∀ orbit ∈ (p.orbit :: trail.map Newton.Step.orbit).dropLast, P orbit := by
  induction h with
  | stay p => exact nofun
  | move _ made _ ih =>
    rw [List.map_cons, List.dropLast_cons_cons]
    exact List.forall_mem_cons.mpr ⟨hnext made, ih⟩

/-- What every step brings about is in place behind the last of them, if it was before the first. -/
theorem invariant {I : Progress α → Prop}
    (hnext : ∀ {p : Progress α} {step}, next p.orbit = .ok step → I (p.after step))
    (h : Trail tolerance next p trail) (hp : I p) : I (trail.foldl Progress.after p) := by
  induction h with
  | stay p => exact hp
  | move _ made _ ih => exact ih (hnext made)

end Trail

/-! ### Following steps -/

/-- Steps while the residual is above the tolerance, within a budget. -/
def follow (tolerance : α) (next : PhaseVector α → Except Fault (Newton.Step α)) :
    Nat → Progress α → Except Fault (Progress α)
  | 0, p => .ok p
  | n + 1, p =>
    if above tolerance p.residual then do
      let step ← next p.orbit
      follow tolerance next n (p.after step)
    else .ok p

/-- A search that ends has either spent its budget or met the tolerance. -/
theorem exists_trail_of_follow {tolerance : α} {next : PhaseVector α → Except Fault (Newton.Step α)} {n : Nat}
    {p q : Progress α} (h : follow tolerance next n p = .ok q) :
    ∃ trail, Trail tolerance next p trail ∧ q = trail.foldl Progress.after p ∧ trail.length ≤ n ∧
      (trail.length = n ∨ above tolerance q.residual = false) := by
  induction n generalizing p with
  | zero => exact ⟨[], .stay p, (Except.ok.inj h).symm, Nat.le_refl 0, .inl rfl⟩
  | succ n ih =>
    rw [follow] at h
    split at h
    · next habove =>
      obtain ⟨step, hstep, hrest⟩ := bind_eq_ok_iff.mp h
      obtain ⟨trail, htrail, hq, hlength, hend⟩ := ih hrest
      exact ⟨step :: trail, .move habove hstep htrail, hq, Nat.succ_le_succ hlength,
        hend.imp_left (congrArg Nat.succ)⟩
    · next habove =>
      obtain rfl := Except.ok.inj h
      exact ⟨[], .stay p, rfl, Nat.zero_le _, .inr (Bool.not_eq_true _ ▸ habove)⟩

/-- A search that fails has a step left and wants it, and it is this step that fails. -/
theorem exists_trail_of_follow_error {tolerance : α} {next : PhaseVector α → Except Fault (Newton.Step α)} {n : Nat}
    {p : Progress α} {fault : Fault} (h : follow tolerance next n p = .error fault) :
    ∃ trail, Trail tolerance next p trail ∧ trail.length < n ∧
      above tolerance (trail.foldl Progress.after p).residual = true ∧
      next (trail.foldl Progress.after p).orbit = .error fault := by
  induction n generalizing p with
  | zero => cases h
  | succ n ih =>
    rw [follow] at h
    split at h
    · next habove =>
      rcases bind_eq_error_iff.mp h with hfails | ⟨step, hstep, hrest⟩
      · exact ⟨[], .stay p, Nat.succ_pos n, habove, hfails⟩
      · obtain ⟨trail, htrail, hlength, hwanted, hfails⟩ := ih hrest
        exact ⟨step :: trail, .move habove hstep htrail, Nat.succ_lt_succ hlength, hwanted, hfails⟩
    · cases h

/-! ### Steps at the site -/

/-- One step from an orbit, where `through` takes a bunch around one turn. -/
def stepFrom (decompose : Decomposer α) (c : OrbitConfig α) (momentum : α)
    (through : Bunch α → Except Fault (Bunch α)) (orbit : PhaseVector α) : Except Fault (Newton.Step α) := do
  let b ← through ⟨momentum, 1, Newton.probe (solved c) c.delta orbit⟩
  Newton.step decompose (solved c) c.delta c.svdThreshold orbit b.particles

/-- The step that a search makes from an orbit, on a range and from a station. -/
def stepAt (decompose : Decomposer α) (c : OrbitConfig α) (momentum : α) (r : Range α) (s : Station α) :
    PhaseVector α → Except Fault (Newton.Step α) :=
  stepFrom decompose c momentum ((site c r s).transport r)

theorem outcome_turn (c : OrbitConfig α) (momentum : α) {s : Station α} {r : Range α}
    (hrange : s.tracker.range = some r) (orbit : PhaseVector α) :
    ((turn c momentum orbit).run s).1 =
      Bunch.particles <$> s.transport r ⟨momentum, 1, Newton.probe (solved c) c.delta orbit⟩ := by
  rw [← Station.outcome_trackBunch hrange, turn, Action.run_bind_of_ok (Station.run_trackBunch s _),
    Action.run_bind_of_ok (Station.run_trackBunch s _)]
  cases ((Ride.track s.tracker).run ⟨⟨momentum, 1, Newton.probe (solved c) c.delta orbit⟩, s.plant⟩).1 <;> rfl

theorem outcome_advance (decompose : Decomposer α) (c : OrbitConfig α) (momentum : α) {s : Station α} {r : Range α}
    (hrange : s.tracker.range = some r) (p : Progress α) :
    ((advance decompose c momentum p).run s).1 =
      p.after <$> stepFrom decompose c momentum (s.transport r) p.orbit := by
  rw [advance, Action.fst_run_bind, outcome_turn c momentum hrange, stepFrom, bind_map_left, map_bind]
  refine bind_congr fun b => ?_
  rw [Action.fst_run_lift_bind, map_eq_pure_bind]
  exact bind_congr fun step => rfl

theorem outcome_iterate (decompose : Decomposer α) (c : OrbitConfig α) (momentum : α) {s : Station α} {r : Range α}
    (hrange : s.tracker.range = some r) (n : Nat) (p : Progress α) :
    ((iterate decompose c momentum n p).run s).1 =
      follow c.tolerance (stepFrom decompose c momentum (s.transport r)) n p := by
  induction n generalizing p s with
  | zero => rfl
  | succ n ih =>
    have hkeeps := keeps_surroundings_advance decompose c momentum p s
    have hnext : ((advance decompose c momentum p).run s).2.tracker.range = some r := by
      rw [Station.tracker_of_surroundings hkeeps, hrange]
    -- a step leaves the place as it was, and so the next step is made at the same site
    have htransport := Station.transport_of_surroundings hkeeps
    rw [iterate, follow]
    split
    · rw [Action.fst_run_bind, outcome_advance decompose c momentum hrange, bind_map_left]
      refine bind_congr fun step => ?_
      rw [ih hnext, htransport]
    · rfl

/-- A search ends as the steps at its site end that it follows from its guess. -/
theorem outcome_find_eq (decompose : Decomposer α) (c : OrbitConfig α) (momentum : α) (r : Range α)
    (guess : PhaseVector α) (s : Station α) :
    ((find decompose c momentum r guess).run s).1 =
      follow c.tolerance (stepAt decompose c momentum r s) (budget c) { orbit := guess, correction := 0 } >>=
        conclude c := by
  rw [outcome_find, outcome_iterate decompose c momentum (range_site c r s)]
  rfl

end OrbitSearch

end BeamOptics
