import BeamOptics.Proofs.ClosedOrbit.Course

/-!
# Searches on an affine turn

Without radiation a turn is affine, and a search needs two steps: the first one finds the orbit as far as the singular
values allow, the second one measures what is left. Then it has converged, or it never will.
-/

namespace BeamOptics

namespace OrbitSearch

open Matrix SquareMatrix

theorem kind_of_mem_transients {α : Type} [Scalar α] {c : OrbitConfig α}
    (hradiation : c.radiation = false) {p : BeamProcess α} (h : p ∈ transients c) : p.kind ≠ .radiation := by
  unfold transients at h
  simp only [hradiation, Bool.false_eq_true, if_false, List.nil_append] at h
  rcases List.mem_append.mp h with hscaling | hcheck
  · split at hscaling
    · exact absurd hscaling List.not_mem_nil
    · obtain rfl := List.mem_singleton.mp hscaling
      exact nofun
  · split at hcheck
    · obtain rfl := List.mem_singleton.mp hcheck
      exact nofun
    · exact absurd hcheck List.not_mem_nil

/-- A station whose tracker has a range that is an affine turn. -/
def Turns (s : Station ℝ) (t : AffineTurn) : Prop := ∃ r, s.tracker.range = some r ∧ Carries (s.transport r) t

theorem Turns.of_surroundings {s s' : Station ℝ} {t : AffineTurn} (h : Turns s t)
    (hsurroundings : s'.surroundings = s.surroundings) : Turns s' t := by
  obtain ⟨r, hrange, hcarries⟩ := h
  refine ⟨r, by rw [Station.tracker_of_surroundings hsurroundings, hrange], ?_⟩
  rw [Station.transport_of_surroundings hsurroundings]
  exact hcarries

theorem exists_turns {c : OrbitConfig ℝ} (hradiation : c.radiation = false) {s : Station ℝ}
    (hprocesses : ∀ p ∈ s.plant.processesOf s.tracker.processes, p.kind ≠ .radiation) (r : Range ℝ) :
    ∃ t, Turns (site c r s) t := by
  have hsite : ∀ p ∈ (site c r s).regime.2, p.kind ≠ .radiation := by
    intro p hp
    rcases mem_site hp with hattached | htransient
    · exact hprocesses p hattached
    · exact kind_of_mem_transients hradiation htransient
  obtain ⟨t, ht⟩ := Range.carries_transport (r := r) (fun e _ p hp => .inl (hsite p hp)) (site c r s).plant.signals
  exact ⟨t, r, range_site c r s, ht⟩

theorem Turns.carries_site {c : OrbitConfig ℝ} {r : Range ℝ} {s : Station ℝ} {t : AffineTurn}
    (h : Turns (site c r s) t) : Carries ((site c r s).transport r) t := by
  obtain ⟨r', hrange, hcarries⟩ := h
  rw [range_site] at hrange
  obtain rfl := Option.some.inj hrange
  exact hcarries

/-! ### Steps at the site -/

variable {decompose : Decomposer ℝ} {c : OrbitConfig ℝ} {t : AffineTurn}

theorem run_turn {s : Station ℝ} (h : Turns s t) (momentum : ℝ) (orbit : PhaseVector ℝ) :
    ∃ s', (turn c momentum orbit).run s =
      (.ok ((Newton.probe (solved c) c.delta orbit).map t.act), s') ∧ Turns s' t := by
  have hafter := h.of_surroundings (keeps_surroundings_turn c momentum orbit s)
  obtain ⟨r, hrange, hcarries⟩ := h
  have houtcome := outcome_turn c momentum hrange orbit
  rw [hcarries] at houtcome
  exact ⟨_, Prod.ext houtcome rfl, hafter⟩

/-- The matrix of the linear system that a step solves. -/
noncomputable abbrev system (c : OrbitConfig ℝ) (t : AffineTurn) : SquareMatrix ℝ (solved c).length :=
  Newton.lessIdentity (solved c) t.matrix

noncomputable def missed (c : OrbitConfig ℝ) (t : AffineTurn) (orbit : PhaseVector ℝ) :
    Vector ℝ (solved c).length :=
  Newton.miss (solved c) t orbit

noncomputable def squaredMiss (c : OrbitConfig ℝ) (t : AffineTurn) (orbit : PhaseVector ℝ) : ℝ :=
  SquareMatrix.dot (missed c t orbit) (missed c t orbit)

noncomputable def correction (c : OrbitConfig ℝ) (t : AffineTurn)
    (d : Svd ℝ (solved c).length) (orbit : PhaseVector ℝ) :
    Vector ℝ (solved c).length :=
  d.solve (missed c t orbit) c.svdThreshold

noncomputable def squaredCorrection (c : OrbitConfig ℝ) (t : AffineTurn)
    (d : Svd ℝ (solved c).length) (orbit : PhaseVector ℝ) : ℝ :=
  SquareMatrix.dot (correction c t d orbit) (correction c t d orbit)

/-- Where a step from an orbit leads. -/
noncomputable def landing (c : OrbitConfig ℝ) (t : AffineTurn)
    (d : Svd ℝ (solved c).length) (orbit : PhaseVector ℝ) : PhaseVector ℝ :=
  Newton.correct (solved c) orbit (correction c t d orbit)

noncomputable def next (c : OrbitConfig ℝ) (t : AffineTurn)
    (d : Svd ℝ (solved c).length) (p : Progress ℝ) : Progress ℝ :=
  ⟨landing c t d p.orbit, some (squaredMiss c t p.orbit), squaredCorrection c t d p.orbit, p.steps + 1⟩

variable {d : Svd ℝ (solved c).length}

theorem stepFrom_of_carries
    (hdecompose : decompose _ (system c t) = some d)
    (hdelta : c.delta ≠ 0) {through : Bunch ℝ → Except Fault (Bunch ℝ)} (h : Carries through t) (momentum : ℝ)
    (orbit : PhaseVector ℝ) :
    stepFrom decompose c momentum through orbit =
      .ok ⟨landing c t d orbit, squaredMiss c t orbit, squaredCorrection c t d orbit⟩ := by
  rw [stepFrom, h]
  exact Newton.step_affine hdecompose hdelta c.svdThreshold orbit

theorem run_advance
    (hdecompose : decompose _ (system c t) = some d)
    (hdelta : c.delta ≠ 0) {s : Station ℝ} (h : Turns s t) (momentum : ℝ) (p : Progress ℝ) :
    ∃ s', (advance decompose c momentum p).run s = (.ok (next c t d p), s') ∧ Turns s' t := by
  have hafter := h.of_surroundings (keeps_surroundings_advance decompose c momentum p s)
  obtain ⟨r, hrange, hcarries⟩ := h
  have houtcome := outcome_advance decompose c momentum hrange p
  rw [stepFrom_of_carries hdecompose hdelta hcarries] at houtcome
  exact ⟨_, Prod.ext houtcome rfl, hafter⟩

theorem run_advances
    (hdecompose : decompose _ (system c t) = some d)
    (hdelta : c.delta ≠ 0) {s : Station ℝ} (h : Turns s t) (momentum : ℝ) (n : Nat) (p : Progress ℝ) :
    ∃ s', (advances decompose c momentum n p).run s = (.ok ((next c t d)^[n] p), s') ∧ Turns s' t := by
  induction n generalizing s p with
  | zero => exact ⟨s, rfl, h⟩
  | succ n ih =>
    obtain ⟨s₁, hrun, hs₁⟩ := run_advance hdecompose hdelta h momentum p
    obtain ⟨s₂, hrest, hs₂⟩ := ih hs₁ (next c t d p)
    refine ⟨s₂, ?_, hs₂⟩
    rw [advances, Action.run_bind_of_ok hrun, hrest, Function.iterate_succ_apply]

/-- Steps while the residual is above the tolerance, within a budget. -/
noncomputable def pursue (c : OrbitConfig ℝ) (t : AffineTurn)
    (d : Svd ℝ (solved c).length) : Nat → Progress ℝ → Progress ℝ
  | 0, p => p
  | n + 1, p => if above c.tolerance p.residual then pursue c t d n (next c t d p) else p

theorem follow_of_carries
    (hdecompose : decompose _ (system c t) = some d)
    (hdelta : c.delta ≠ 0) {through : Bunch ℝ → Except Fault (Bunch ℝ)} (h : Carries through t) (momentum : ℝ)
    (n : Nat) (p : Progress ℝ) :
    follow c.tolerance (stepFrom decompose c momentum through) n p = .ok (pursue c t d n p) := by
  induction n generalizing p with
  | zero => rfl
  | succ n ih =>
    rw [follow, pursue]
    split
    · rw [stepFrom_of_carries hdecompose hdelta h]
      exact ih (next c t d p)
    · rfl

/-! ### The first step and the others -/

section

variable (hexact : d.IsExact (system c t))
  (hthreshold : 0 ≤ c.svdThreshold) (orbit : PhaseVector ℝ)

include hexact hthreshold

theorem entries_missed_landing :
    entries (missed c t (landing c t d orbit)) = d.residue c.svdThreshold (entries (missed c t orbit)) := by
  have hoff := Newton.entries_miss_correct (Newton.coordinates_nodup c.transverseOnly) t orbit (correction c t d orbit)
  have htaken := hexact.mulVec_solve hthreshold (missed c t orbit)
  calc entries (missed c t (landing c t d orbit))
      = entries (missed c t orbit) - (entries (missed c t orbit) -
          d.residue c.svdThreshold (entries (missed c t orbit))) := by
        rw [← htaken]
        exact hoff
    _ = d.residue c.svdThreshold (entries (missed c t orbit)) := sub_sub_cancel _ _

theorem squaredMiss_landing_le : squaredMiss c t (landing c t d orbit) ≤ squaredMiss c t orbit := by
  rw [squaredMiss, squaredMiss, dot_real, dot_real, entries_missed_landing hexact hthreshold]
  exact hexact.residue_dotProduct_le _

theorem entries_correction_landing : entries (correction c t d (landing c t d orbit)) = 0 :=
  hexact.entries_solve_residue (entries_missed_landing hexact hthreshold orbit)

theorem landing_landing : landing c t d (landing c t d orbit) = landing c t d orbit :=
  Newton.correct_of_entries_eq_zero _ (entries_correction_landing hexact hthreshold orbit)

theorem squaredCorrection_landing : squaredCorrection c t d (landing c t d orbit) = 0 := by
  rw [squaredCorrection, dot_real, entries_correction_landing hexact hthreshold, zero_dotProduct]

/-- A step from where a step has led only measures. -/
theorem next_of_landing {p : Progress ℝ} (hp : p.orbit = landing c t d orbit) :
    next c t d p = ⟨landing c t d orbit, some (squaredMiss c t (landing c t d orbit)), 0, p.steps + 1⟩ := by
  rw [next, hp, landing_landing hexact hthreshold, squaredCorrection_landing hexact hthreshold]

theorem iterate_next_of_landing (n : Nat) {p : Progress ℝ} (hp : p.orbit = landing c t d orbit) :
    (next c t d)^[n + 1] p =
      ⟨landing c t d orbit, some (squaredMiss c t (landing c t d orbit)), 0, p.steps + (n + 1)⟩ := by
  induction n with
  | zero => exact next_of_landing hexact hthreshold orbit hp
  | succ n ih => rw [Function.iterate_succ_apply', ih, next_of_landing hexact hthreshold orbit rfl, Nat.add_assoc]

theorem pursue_of_landing (n : Nat) {p : Progress ℝ} (hp : p.orbit = landing c t d orbit)
    (habove : above c.tolerance p.residual) (hmiss : c.tolerance < squaredMiss c t (landing c t d orbit)) :
    pursue c t d (n + 1) p =
      ⟨landing c t d orbit, some (squaredMiss c t (landing c t d orbit)), 0, p.steps + (n + 1)⟩ := by
  induction n generalizing p with
  | zero =>
    rw [pursue, if_pos habove]
    exact next_of_landing hexact hthreshold orbit hp
  | succ n ih =>
    have hstill : above c.tolerance (some (squaredMiss c t (landing c t d orbit))) := decide_eq_true hmiss
    have hsteps : p.steps + 1 + (n + 1) = p.steps + (n + 1 + 1) := by omega
    rw [pursue, if_pos habove, next_of_landing hexact hthreshold orbit hp, ih rfl hstill, ← hsteps]

end

/-! ### Whole searches -/

theorem pursue_of_met (n : Nat) {p : Progress ℝ} (hmet : ¬above c.tolerance p.residual = true) :
    pursue c t d n p = p := by
  cases n with
  | zero => rfl
  | succ n => rw [pursue, if_neg hmet]

/-- What a search on an affine turn ends with. -/
noncomputable def ending (c : OrbitConfig ℝ) (t : AffineTurn)
    (d : Svd ℝ (solved c).length) (guess : PhaseVector ℝ) : OrbitResult ℝ :=
  if squaredMiss c t guess ≤ c.tolerance then
    ⟨landing c t d guess, true, 1, some (squaredMiss c t guess), squaredCorrection c t d guess⟩
  else if squaredMiss c t (landing c t d guess) ≤ c.tolerance then
    ⟨landing c t d guess, true, 2, some (squaredMiss c t (landing c t d guess)), 0⟩
  else ⟨landing c t d guess, false, (budget c : Nat), some (squaredMiss c t (landing c t d guess)), 0⟩

theorem conclude_real (orbit : PhaseVector ℝ) {residual correction : ℝ} (hresidual : 0 ≤ residual)
    (hcorrection : 0 ≤ correction) (steps : Nat) :
    conclude c ⟨orbit, some residual, correction, steps⟩ =
      .ok ⟨orbit, decide (residual ≤ c.tolerance), steps, some residual, correction⟩ := by
  simp only [conclude, meets, Scalar.le_real, hresidual, hcorrection, decide_true, if_true, List.append_nil]

theorem conclude_pursue (hexact : d.IsExact (system c t))
    (hthreshold : 0 ≤ c.svdThreshold) (guess : PhaseVector ℝ) (n : Nat) (hbudget : budget c = n + 2) :
    conclude c (pursue c t d (n + 2) { orbit := guess, correction := 0 }) = .ok (ending c t d guess) := by
  have hstart : pursue c t d (n + 2) { orbit := guess, correction := 0 } = pursue c t d (n + 1)
      ⟨landing c t d guess, some (squaredMiss c t guess), squaredCorrection c t d guess, 1⟩ := rfl
  have hguess : 0 ≤ squaredMiss c t guess := dot_self_nonneg _
  have hlanding : 0 ≤ squaredMiss c t (landing c t d guess) := dot_self_nonneg _
  have hcorrection : 0 ≤ squaredCorrection c t d guess := dot_self_nonneg _
  rw [hstart, ending]
  by_cases hfirst : squaredMiss c t guess ≤ c.tolerance
  · have hmet : ¬above c.tolerance (some (squaredMiss c t guess)) = true := by
      simpa [above] using hfirst
    rw [pursue_of_met _ hmet, conclude_real _ hguess hcorrection, if_pos hfirst, decide_eq_true hfirst]
    rfl
  have habove : above c.tolerance (some (squaredMiss c t guess)) = true := decide_eq_true (not_le.mp hfirst)
  rw [if_neg hfirst]
  by_cases hsecond : squaredMiss c t (landing c t d guess) ≤ c.tolerance
  · have hmet : ¬above c.tolerance (some (squaredMiss c t (landing c t d guess))) = true := by
      simpa [above] using hsecond
    rw [pursue, if_pos habove, next_of_landing hexact hthreshold guess rfl, pursue_of_met _ hmet,
      conclude_real _ hlanding le_rfl, if_pos hsecond, decide_eq_true hsecond]
    rfl
  · rw [pursue_of_landing hexact hthreshold guess n rfl habove (not_le.mp hsecond),
      conclude_real _ hlanding le_rfl, if_neg hsecond, decide_eq_false hsecond, hbudget]
    have hsteps : 1 + (n + 1) = n + 2 := by omega
    rw [hsteps]

theorem outcome_find_of_turns
    (hdecompose : decompose _ (system c t) = some d)
    (hexact : d.IsExact (system c t))
    (hdelta : c.delta ≠ 0) (hthreshold : 0 ≤ c.svdThreshold) (hbudget : 2 ≤ budget c) {s : Station ℝ} {r : Range ℝ}
    (h : Turns (site c r s) t) (momentum : ℝ) (guess : PhaseVector ℝ) :
    ((find decompose c momentum r guess).run s).1 = .ok (ending c t d guess) := by
  obtain ⟨n, hn⟩ : ∃ n, budget c = n + 2 := ⟨budget c - 2, by omega⟩
  rw [outcome_find_eq, stepAt, follow_of_carries hdecompose hdelta h.carries_site, hn]
  exact conclude_pursue hexact hthreshold guess n hn

/-! ### When nothing is discarded -/

section

variable (hexact : d.IsExact (system c t))
  (hthreshold : 0 ≤ c.svdThreshold) (hkept : ∀ i, d.Kept c.svdThreshold i)

include hexact hthreshold hkept

theorem entries_missed_landing_of_kept (guess : PhaseVector ℝ) : entries (missed c t (landing c t d guess)) = 0 := by
  rw [entries_missed_landing hexact hthreshold]
  exact hexact.residue_eq_zero hkept _

theorem squaredMiss_landing_of_kept (guess : PhaseVector ℝ) : squaredMiss c t (landing c t d guess) = 0 := by
  rw [squaredMiss, dot_real, entries_missed_landing_of_kept hexact hthreshold hkept, zero_dotProduct]

/-- A step leads to the one orbit that closes, among those that differ from its start on the solved coordinates only. -/
theorem closes_iff_eq_landing (guess z : PhaseVector ℝ) :
    ((∀ a ∉ solved c, z.get a = guess.get a) ∧
      ∀ a ∈ solved c, (t.act z).get a = z.get a) ↔ z = landing c t d guess := by
  constructor
  · rintro ⟨hoff, hcloses⟩
    -- both the way to `z` and the correction solve the linear system of the step
    let way := Newton.project (solved c) (guess - z)
    have hz : Newton.correct (solved c) guess way = z :=
      Newton.correct_project_sub (Newton.coordinates_nodup _) hoff
    have hway : toMatrix (system c t) *ᵥ entries way =
        entries (missed c t guess) := by
      have hmiss := Newton.entries_miss_correct (Newton.coordinates_nodup c.transverseOnly) t guess way
      rw [hz, (Newton.entries_miss_eq_zero_iff t z).mpr hcloses] at hmiss
      exact (sub_eq_zero.mp hmiss.symm).symm
    have hcorrection := hexact.mulVec_solve hthreshold (missed c t guess)
    rw [hexact.residue_eq_zero hkept, sub_zero, ← hway] at hcorrection
    have hunit := hexact.isUnit_toMatrix hthreshold hkept
    have hsame : correction c t d guess = way :=
      entries_injective (mulVec_injective_of_isUnit hunit hcorrection)
    rw [landing, hsame, hz]
  · rintro rfl
    refine ⟨fun a ha => Newton.get_correct_of_not_mem _ _ ha, ?_⟩
    exact (Newton.entries_miss_eq_zero_iff t _).mp (entries_missed_landing_of_kept hexact hthreshold hkept guess)

theorem ending_of_kept (htolerance : 0 ≤ c.tolerance) (guess : PhaseVector ℝ) :
    (ending c t d guess).orbit = landing c t d guess ∧ (ending c t d guess).converged = true ∧
      (ending c t d guess).iterations ≤ 2 := by
  have hsecond : squaredMiss c t (landing c t d guess) ≤ c.tolerance := by
    rw [squaredMiss_landing_of_kept hexact hthreshold hkept]
    exact htolerance
  rw [ending]
  by_cases hfirst : squaredMiss c t guess ≤ c.tolerance
  · rw [if_pos hfirst]
    exact ⟨rfl, rfl, (by decide : (1 : Int) ≤ 2)⟩
  · rw [if_neg hfirst, if_pos hsecond]
    exact ⟨rfl, rfl, le_refl (2 : Int)⟩

theorem ending_landing_of_kept (htolerance : 0 ≤ c.tolerance) (guess : PhaseVector ℝ) :
    ending c t d (landing c t d guess) = ⟨landing c t d guess, true, 1, some 0, 0⟩ := by
  have hmiss := squaredMiss_landing_of_kept hexact hthreshold hkept guess
  rw [ending, hmiss, if_pos htolerance, landing_landing hexact hthreshold, squaredCorrection_landing hexact hthreshold]

end

/-- A search without radiation. One turn is affine, and every step meets the same matrix. The first step leaves of the
residual what the singular vectors that count cannot see, later ones correct nothing, and the search converges at its
first step, at its second, or not at all. If every singular value counts, it finds the one orbit that closes. -/
theorem find_on_affine_turn {c : OrbitConfig ℝ} (hdelta : 0 < c.delta) (hthreshold : 0 ≤ c.svdThreshold)
    (hradiation : c.radiation = false) {s : Station ℝ}
    (hprocesses : ∀ p ∈ s.plant.processesOf s.tracker.processes, p.kind ≠ .radiation) (r : Range ℝ) :
    (∃ t, Turns (site c r s) t) ∧
      ∀ t, Turns (site c r s) t → ∀ (decompose : Decomposer ℝ) (d : Svd ℝ (solved c).length),
        decompose _ (system c t) = some d → d.IsExact (system c t) → ∀ (momentum : ℝ) (guess : PhaseVector ℝ),
        (∀ (n : Nat) (delta : ℝ) (orbit : PhaseVector ℝ), delta ≠ 0 → ∃ reference images,
          ((turn { c with delta } momentum orbit).run
            ((advances decompose c momentum n { orbit := guess, correction := 0 }).run (site c r s)).2).1 =
              .ok (reference :: images) ∧
            Newton.jacobian (solved c) delta reference images = system c t) ∧
        (∀ n : Nat, ((advances decompose c momentum (n + 1) { orbit := guess, correction := 0 }).run (site c r s)).1 =
          .ok (if n = 0 then
              ⟨landing c t d guess, some (squaredMiss c t guess), squaredCorrection c t d guess, 1⟩
            else ⟨landing c t d guess, some (squaredMiss c t (landing c t d guess)), 0, n + 1⟩)) ∧
        entries (missed c t (landing c t d guess)) = d.residue c.svdThreshold (entries (missed c t guess)) ∧
        squaredMiss c t (landing c t d guess) ≤ squaredMiss c t guess ∧
        (2 ≤ budget c → ((find decompose c momentum r guess).run s).1 = .ok (ending c t d guess)) ∧
        ((∀ i, d.Kept c.svdThreshold i) →
          (∀ z : PhaseVector ℝ, ((∀ a ∉ solved c, z.get a = guess.get a) ∧
            ∀ a ∈ solved c, (t.act z).get a = z.get a) ↔ z = landing c t d guess) ∧
          (2 ≤ budget c → 0 ≤ c.tolerance →
            (∃ result, ((find decompose c momentum r guess).run s).1 = .ok result ∧
              result.orbit = landing c t d guess ∧ result.converged = true ∧ result.iterations ≤ 2) ∧
            ((find decompose c momentum r (landing c t d guess)).run s).1 =
              .ok ⟨landing c t d guess, true, 1, some 0, 0⟩)) := by
  refine ⟨exists_turns hradiation hprocesses r, ?_⟩
  intro t hturns decompose d hdecompose hexact momentum guess
  have hadvances (n : Nat) := run_advances hdecompose hdelta.ne' hturns momentum n { orbit := guess, correction := 0 }
  have hfind (guess : PhaseVector ℝ) (hbudget : 2 ≤ budget c) :=
    outcome_find_of_turns hdecompose hexact hdelta.ne' hthreshold hbudget hturns momentum guess
  refine ⟨?_, ?_, entries_missed_landing hexact hthreshold guess, squaredMiss_landing_le hexact hthreshold guess,
    hfind guess, ?_⟩
  · intro n delta orbit hdelta
    obtain ⟨s', hrun, hs'⟩ := hadvances n
    obtain ⟨s'', hturn, -⟩ := run_turn (c := { c with delta }) hs' momentum orbit
    refine ⟨_, _, ?_, Newton.jacobian_affine t hdelta orbit⟩
    rw [hrun, hturn]
    rfl
  · intro n
    obtain ⟨s', hrun, -⟩ := hadvances (n + 1)
    rw [hrun]
    cases n with
    | zero => rfl
    | succ n =>
      have hsteps : 0 + 1 + (n + 1) = n + 1 + 1 := by omega
      rw [Function.iterate_succ_apply, iterate_next_of_landing hexact hthreshold guess n rfl,
        if_neg (Nat.succ_ne_zero n), ← hsteps]
      rfl
  · intro hkept
    refine ⟨closes_iff_eq_landing hexact hthreshold hkept guess, ?_⟩
    intro hbudget htolerance
    refine ⟨⟨_, hfind guess hbudget, ending_of_kept hexact hthreshold hkept htolerance guess⟩, ?_⟩
    rw [hfind _ hbudget, ending_landing_of_kept hexact hthreshold hkept htolerance]

end OrbitSearch

namespace KickedRing

open Matrix SquareMatrix

noncomputable def doubling : TransferMap ℝ :=
  PhaseVector.ofFn fun row => PhaseVector.ofFn fun column => if column = row then 1 + 1 else 0

/-- A ring of one element, which doubles every coordinate and kicks. -/
noncomputable def ring : Range ℝ := ⟨0, [⟨0, "OTM", "MatrixElement", 0, .map doubling ⟨0, 1, 0, 0, 0, 0⟩⟩]⟩

noncomputable def oneTurn : AffineTurn := ⟨doubling, ⟨0, 1, 0, 0, 0, 0⟩⟩

def station : Station ℝ := ⟨{ }, { }⟩

noncomputable def config : OrbitConfig ℝ where
  transverseOnly := true
  radiation := false
  radiationSteps := 1
  radiationStepSize := 0
  fullAcceleration := false
  delta := 1
  tolerance := 0
  maxIterations := 3
  bendScale := 0
  checkFinite := false
  svdThreshold := 0

noncomputable def decomposition (n : Nat) : Svd ℝ n := ⟨identity, Vector.replicate n 1, identity⟩

theorem get_act_oneTurn (v : PhaseVector ℝ) (c : Coordinate) :
    (oneTurn.act v).get c = (1 + 1) * v.get c + oneTurn.shift.get c := by
  rw [Newton.get_act_real]
  simp only [oneTurn, doubling, PhaseVector.get_ofFn, ite_mul, zero_mul, Finset.sum_ite_eq', Finset.mem_univ, if_true]

theorem turns_site : OrbitSearch.Turns (OrbitSearch.site config ring station) oneTurn := by
  have htransients : OrbitSearch.transients config = [] := by simp [OrbitSearch.transients, config]
  refine ⟨ring, OrbitSearch.range_site config ring station, ?_⟩
  intro b
  rw [OrbitSearch.site, htransients]
  rfl

theorem system_eq : OrbitSearch.system config oneTurn = identity := by
  unfold OrbitSearch.system Newton.lessIdentity identity
  congr 1
  funext row column
  have hsame : (OrbitSearch.solved config).get column = (OrbitSearch.solved config).get row ↔ row = column :=
    (Newton.coordinates_nodup true).get_inj_iff.trans eq_comm
  simp only [oneTurn, doubling, PhaseVector.get_ofFn, hsame]
  by_cases h : row = column
  · rw [if_pos h, if_pos h, add_sub_cancel_right]
  · rw [if_neg h, if_neg h, sub_zero]

theorem isExact_decomposition (n : Nat) : (decomposition n).IsExact identity := by
  have hidentity : toMatrix (identity : SquareMatrix ℝ n) = 1 := by
    rw [identity, toMatrix_ofFn]
    rfl
  have hvalues : entries (decomposition n).values = fun _ => 1 := by
    funext i
    exact Vector.getElem_replicate i.isLt
  refine ⟨?_, ?_, ?_, ?_, ?_⟩
  · rw [decomposition, hidentity, transpose_one, one_mul]
  · rw [decomposition, hidentity, transpose_one, one_mul]
  · rw [hvalues, decomposition, hidentity, diagonal_one, one_mul, one_mul]
  · intro i
    rw [hvalues]
    exact zero_le_one
  · rw [hvalues]
    exact antitone_const

theorem kept (i : Fin (OrbitSearch.solved config).length) :
    (decomposition (OrbitSearch.solved config).length).Kept config.svdThreshold i := by
  have hlargest : (decomposition (OrbitSearch.solved config).length).largest = 1 := by
    simp [Svd.largest, decomposition, i.pos]
  have hvalue : entries (decomposition (OrbitSearch.solved config).length).values i = 1 :=
    Vector.getElem_replicate i.isLt
  refine ⟨?_, ?_⟩
  · rw [hlargest]
    exact zero_lt_one
  · rw [hlargest, hvalue, mul_one]
    exact zero_lt_one

end KickedRing

namespace OrbitSearch

open KickedRing in
theorem find_on_affine_turn_kicked :
    0 < config.delta ∧ 0 ≤ config.svdThreshold ∧ config.radiation = false ∧
      (∀ p ∈ station.plant.processesOf station.tracker.processes, p.kind ≠ .radiation) ∧
      ∃ result, ((find (fun n _ => some (decomposition n)) config 1 ring 0).run station).1 = .ok result ∧
        result.orbit = ⟨0, -1, 0, 0, 0, 0⟩ ∧ result.converged = true ∧ result.iterations ≤ 2 := by
  have hdelta : 0 < config.delta := zero_lt_one
  have hprocesses : ∀ p ∈ station.plant.processesOf station.tracker.processes, p.kind ≠ .radiation := nofun
  have hexact : (decomposition (solved config).length).IsExact (system config oneTurn) := by
    rw [system_eq]
    exact isExact_decomposition _
  refine ⟨hdelta, le_rfl, rfl, hprocesses, ?_⟩
  obtain ⟨-, -, -, -, -, hkept⟩ := (find_on_affine_turn hdelta le_rfl rfl hprocesses ring).2 oneTurn turns_site
    (fun n _ => some (decomposition n)) (decomposition _) rfl hexact 1 0
  obtain ⟨hcloses, hfinds⟩ := hkept kept
  obtain ⟨⟨result, hfind, horbit, hconverged, hiterations⟩, -⟩ := hfinds (by decide) le_rfl
  have hlanding : (⟨0, -1, 0, 0, 0, 0⟩ : PhaseVector ℝ) = landing config oneTurn (decomposition _) 0 := by
    refine (hcloses _).mp ⟨?_, ?_⟩
    · intro a ha
      cases a <;> first | rfl | exact absurd (by decide) ha
    · intro a ha
      rw [get_act_oneTurn]
      cases a <;> norm_num [oneTurn, PhaseVector.get]
  exact ⟨result, hfind, horbit.trans hlanding.symm, hconverged, hiterations⟩

end OrbitSearch

end BeamOptics
