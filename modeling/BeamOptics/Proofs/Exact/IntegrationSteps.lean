import BeamOptics.Proofs.Exact.Settings
import BeamOptics.Proofs.Tracking.ProcessOrder

/-!
# Integration steps

Processes demand of the steps into which an element is split that they be short enough, or enough of them. In exact
arithmetic the element is split into the fewest steps that meet all the demands. Each of them goes through the map once,
and then through every attached process once for each time that it is attached.
-/

namespace BeamOptics

/-! ### Demands on steps -/

/-- What radiation demands of a count of steps into which a length is split. -/
structure Radiation.MetBy (r : Radiation ℝ) (length : ℝ) (n : ℕ) : Prop where
  size : 0 < r.maxStep → length / n ≤ r.maxStep
  count : ¬0 < r.maxStep → r.steps ≤ n

theorem Radiation.metBy_iff {r : Radiation ℝ} {length : ℝ} {k n : ℕ} (h : r.requestedSteps length = .ok k)
    (hn : 1 ≤ n) : r.MetBy length n ↔ k ≤ n := by
  have hpos : (0 : ℝ) < n := Nat.cast_pos.mpr hn
  rw [requestedSteps, Scalar.lt_real] at h
  by_cases hsize : 0 < r.maxStep
  · rw [decide_eq_true hsize] at h
    obtain rfl : max 1 ⌈length / r.maxStep⌉.toNat = k := Except.ok.inj h
    have hceil : ⌈length / r.maxStep⌉.toNat ≤ n ↔ length / n ≤ r.maxStep := by
      rw [Int.toNat_le, Int.ceil_le, Int.cast_natCast, div_le_iff₀ hsize, div_le_iff₀ hpos, mul_comm]
    rw [max_le_iff, hceil]
    exact ⟨fun hmet => ⟨hn, hmet.size hsize⟩, fun hmet => ⟨fun _ => hmet.2, fun hnone => absurd hsize hnone⟩⟩
  · rw [decide_eq_false hsize] at h
    obtain rfl : r.steps = k := Except.ok.inj h
    exact ⟨fun hmet => hmet.count hsize, fun hmet => ⟨fun hsome => absurd hsome hsize, fun _ => hmet⟩⟩

namespace BeamProcess

/-- Processes other than radiation are content with any count of steps but none. -/
def MetBy (e : Element ℝ) (n : ℕ) : BeamProcess ℝ → Prop
  | radiation r => r.MetBy e.length n
  | _ => True

theorem metBy_iff {p : BeamProcess ℝ} {e : Element ℝ} {k n : ℕ} (h : p.requestedSteps e = .ok k) (hn : 1 ≤ n) :
    p.MetBy e n ↔ k ≤ n := by
  cases p with
  | radiation r => exact Radiation.metBy_iff (mapError_eq_ok_iff.mp h) hn
  | ringDelta scale =>
    obtain rfl := Except.ok.inj h
    exact iff_of_true trivial hn
  | finiteness detailed =>
    obtain rfl := Except.ok.inj h
    exact iff_of_true trivial hn

end BeamProcess

namespace Pass

variable {processes : List (BeamProcess ℝ)} {e : Element ℝ}

theorem exists_mostSteps (hset : ∀ p ∈ processes, p.IsSet) (e : Element ℝ) :
    ∃ k, mostSteps e processes = .ok k ∧ ∀ n, 1 ≤ n → ((∀ p ∈ processes, p.MetBy e n) ↔ k ≤ n) := by
  induction processes with
  | nil => exact ⟨0, rfl, fun n _ => iff_of_true (fun p hp => absurd hp List.not_mem_nil) n.zero_le⟩
  | cons p rest ih =>
    obtain ⟨k, -, hk⟩ := BeamProcess.exists_requestedSteps (hset p List.mem_cons_self) e
    obtain ⟨m, hm, hrest⟩ := ih fun q hq => hset q (List.mem_cons_of_mem p hq)
    refine ⟨max k m, ?_, ?_⟩
    · rw [mostSteps, hk, hm]
      rfl
    · intro n hn
      rw [List.forall_mem_cons, BeamProcess.metBy_iff hk hn, hrest n hn, max_le_iff]

/-- The fewest steps that meet all demands. -/
theorem exists_isLeast_stepCount (hset : ∀ p ∈ processes, p.IsSet) (hsliceable : e.sliceable = true) :
    ∃ n, stepCount processes e = .ok n ∧ IsLeast {m | 1 ≤ m ∧ ∀ p ∈ processes, p.MetBy e m} n := by
  cases processes with
  | nil =>
    refine ⟨1, stepCount_nil e, ⟨le_rfl, fun p hp => absurd hp List.not_mem_nil⟩, ?_⟩
    exact fun m hm => hm.1
  | cons p rest =>
    obtain ⟨k, hk, hdemands⟩ := exists_mostSteps hset e
    obtain ⟨n, hn, hcount⟩ :=
      exists_stepCount_of_requests fun q hq => BeamProcess.exists_requestedSteps (hset q hq) e
    rw [stepCount_cons hsliceable, hk] at hcount
    obtain rfl := Except.ok.inj hcount
    have hone : 1 ≤ k := Nat.one_le_iff_ne_zero.mpr hn
    refine ⟨k, (stepCount_cons hsliceable p rest).trans hk, ⟨hone, (hdemands k hone).mpr le_rfl⟩, ?_⟩
    intro m hm
    exact (hdemands m hm.1).mp hm.2

end Pass

/-! ### Strokes -/

/-- What a bunch meets in a slice: the map of the slice, or a process. -/
inductive Stroke (α : Type)
  | map
  | process (p : BeamProcess α)

variable {α : Type} [Scalar α]

def Stroke.strike (e : Element α) (m : TransferMap α) (kick : PhaseVector α) (ds : α) (b : Bunch α) :
    Stroke α → Except Fault (Bunch α)
  | map => .ok (b.mapParticles fun v => m.act v + kick)
  | process p => p.act e ds b

namespace Pass

theorem reach_applyAll (processes : List (BeamProcess α)) (e : Element α) (m : TransferMap α) (kick : PhaseVector α)
    (ds : α) (b : Bunch α) :
    (applyAll e ds processes).reach b = (processes.map .process).foldlM (Stroke.strike e m kick ds) b := by
  induction processes generalizing b with
  | nil => rfl
  | cons p rest ih =>
    rw [reach_applyAll_cons, List.map_cons, List.foldlM_cons, Stroke.strike]
    exact bind_congr ih

/-- A slice goes through the map once, and then through every process in turn. -/
theorem reach_slice (processes : List (BeamProcess α)) (e : Element α) (m : TransferMap α) (kick : PhaseVector α)
    (ds : α) (b : Bunch α) :
    (slice processes e m kick ds).reach b =
      (.map :: processes.map .process : List (Stroke α)).foldlM (Stroke.strike e m kick ds) b := by
  rw [List.foldlM_cons]
  exact reach_applyAll processes e m kick ds _

theorem reach_slices (processes : List (BeamProcess α)) (e : Element α) (m : TransferMap α) (kick : PhaseVector α)
    (ds : α) (n : Nat) (b : Bunch α) :
    (slices processes e m kick ds n).reach b =
      (List.replicate n (.map :: processes.map .process)).flatten.foldlM (Stroke.strike e m kick ds) b := by
  induction n generalizing b with
  | zero => rfl
  | succ n ih =>
    rw [slices, Action.reach_bind, reach_slice, List.replicate_succ, List.flatten_cons, List.foldlM_append]
    exact bind_congr ih

theorem through_eq_foldlM {processes : List (BeamProcess α)} {e : Element α} {n : Nat} {ds : α} {m : TransferMap α}
    (hn : stepCount processes e = .ok n) (hds : Scalar.overCount e.length n = .ok ds) (hm : e.transferMap ds = .ok m)
    (signals : Signals α) (b : Bunch α) :
    through processes signals e b =
      (List.replicate n (.map :: (BeamProcess.inOrder BeamProcess.kind processes).map .process)).flatten.foldlM
        (Stroke.strike e m (e.kick (signals.strength e) ds) ds) b := by
  rw [through_eq_inSlices hn, inSlices_eq_reach hds hm, reach_slices]

end Pass

/-- Processes that ask for steps at all have a sliceable element split into the fewest equal steps that are short enough
and many enough for each of them, and one that cannot be sliced is passed in one step whatever is attached. Every step
goes through the map once and then through each process once for every time that it is attached, in the order of the
kinds. -/
theorem integration_steps_honour_every_process (processes : List (BeamProcess ℝ)) (e : Element ℝ) :
    (e.sliceable = true → (∀ p ∈ processes, p.IsSet) →
      ∃ n ds, Pass.stepCount processes e = .ok n ∧ Scalar.overCount e.length n = .ok ds ∧ n * ds = e.length ∧
        (∀ r, .radiation r ∈ processes → 0 < r.maxStep → ds ≤ r.maxStep) ∧
        (∀ r, .radiation r ∈ processes → ¬0 < r.maxStep → r.steps ≤ n) ∧
        IsLeast {m | 1 ≤ m ∧ ∀ p ∈ processes, p.MetBy e m} n) ∧
    (e.sliceable = false → Pass.stepCount processes e = .ok 1) ∧
    ∃ order : List (BeamProcess ℝ), order.Perm processes ∧
      (order.Pairwise fun p q => p.kind.rank ≤ q.kind.rank) ∧
      ∀ n ds, Pass.stepCount processes e = .ok n → Scalar.overCount e.length n = .ok ds →
        ∃ m, e.transferMap ds = .ok m ∧ ∀ signals b,
          Pass.through processes signals e b = (List.replicate n (.map :: order.map .process)).flatten.foldlM
            (Stroke.strike e m (e.kick (signals.strength e) ds) ds) b := by
  refine ⟨?_, ?_, ?_⟩
  · intro hsliceable hset
    obtain ⟨n, hn, hleast⟩ := Pass.exists_isLeast_stepCount hset hsliceable
    obtain ⟨hone, hmet⟩ := hleast.1
    have hsome : n ≠ 0 := Nat.one_le_iff_ne_zero.mp hone
    refine ⟨n, e.length / n, hn, Scalar.overCount_real hsome e.length, ?_, ?_, ?_, hleast⟩
    · exact mul_div_cancel₀ e.length (Nat.cast_ne_zero.mpr hsome)
    · intro r hr
      exact (hmet _ hr).size
    · intro r hr
      exact (hmet _ hr).count
  · intro hsliceable
    exact Pass.stepCount_of_not_sliceable hsliceable processes
  · refine ⟨BeamProcess.inOrder BeamProcess.kind processes, BeamProcess.inOrder_perm _ _,
      BeamProcess.pairwise_inOrder _ _, ?_⟩
    intro n ds hn hds
    obtain ⟨m, hm⟩ := e.exists_transferMap ds
    refine ⟨m, hm, ?_⟩
    intro signals b
    exact Pass.through_eq_foldlM hn hds hm signals b

namespace MixedDemands

/-! ### Radiation of two modes -/

noncomputable def drift : Element ℝ := ⟨0, "D", "Drift", 1, .drift⟩

noncomputable def matrix : Element ℝ := ⟨1, "M", "MatrixElement", 1, .map .identity 0⟩

/-- A bit less than a third. -/
noncomputable def limit : ℝ := Scalar.ofNat 3 / Scalar.ofNat 10

/-- Two steps at least, a check, and steps no longer than the limit. -/
noncomputable def processes : List (BeamProcess ℝ) :=
  [.radiation ⟨2, 0, false⟩, .finiteness false, .radiation ⟨0, limit, false⟩]

theorem limit_eq : limit = 3 / 10 := by
  simp [limit]

theorem limit_pos : 0 < limit := by
  norm_num [limit_eq]

theorem build_two : Radiation.build (.int 2) (0 : ℝ) false = .ok ⟨2, 0, false⟩ := by
  rw [Radiation.build, Scalar.lt_real, decide_eq_false (lt_irrefl _)]
  rfl

theorem build_limit : Radiation.build (.int 1) limit false = .ok ⟨0, limit, false⟩ := by
  rw [Radiation.build, Scalar.lt_real, decide_eq_true limit_pos, if_pos rfl, Radiation.setMaxStep, Scalar.le_real,
    decide_eq_false (not_le.mpr limit_pos)]
  rfl

theorem isSet_processes : ∀ p ∈ processes, p.IsSet := by
  refine List.forall_mem_cons.mpr ⟨Radiation.isSet_of_build build_two, ?_⟩
  refine List.forall_mem_cons.mpr ⟨trivial, ?_⟩
  exact List.forall_mem_singleton.mpr (Radiation.isSet_of_build build_limit)

theorem steps_of_mixed_demands :
    Pass.stepCount processes drift = .ok 4 ∧ Pass.stepCount processes matrix = .ok 1 ∧
    ∃ (order : List (BeamProcess ℝ)) (m : TransferMap ℝ), order.Perm processes ∧ drift.transferMap (1 / 4) = .ok m ∧
      ∀ signals b,
        Pass.through processes signals drift b = (List.replicate 4 (.map :: order.map .process)).flatten.foldlM
          (Stroke.strike drift m (drift.kick (signals.strength drift) (1 / 4)) (1 / 4)) b := by
  obtain ⟨hsliceable, -, order, hperm, -, hstrokes⟩ := integration_steps_honour_every_process processes drift
  obtain ⟨-, hwhole, -⟩ := integration_steps_honour_every_process processes matrix
  obtain ⟨n, ds, hn, hds, hlength, hsize, -, hleast⟩ := hsliceable rfl isSet_processes
  have hfour : 4 ∈ {m | 1 ≤ m ∧ ∀ p ∈ processes, p.MetBy drift m} := by
    refine ⟨by omega, List.forall_mem_cons.mpr ⟨?_, List.forall_mem_cons.mpr ⟨trivial, ?_⟩⟩⟩
    · exact ⟨fun hpos => absurd hpos (lt_irrefl 0), fun _ => show 2 ≤ 4 by omega⟩
    · exact List.forall_mem_singleton.mpr ⟨fun _ => by norm_num [drift, limit_eq], fun _ => Nat.zero_le 4⟩
  have hle : n ≤ 4 := hleast.2 hfour
  -- in three steps or fewer the steps are longer than the limit
  have hshort : ds ≤ limit := hsize ⟨0, limit, false⟩ (by simp [processes]) limit_pos
  rw [limit_eq] at hshort
  have hge : 4 ≤ n := by
    by_contra hfew
    have hcast : (n : ℝ) ≤ 3 := by exact_mod_cast (by omega : n ≤ 3)
    have hone : (n : ℝ) * ds = 1 := hlength
    nlinarith [Nat.cast_nonneg (α := ℝ) n]
  obtain rfl : n = 4 := by omega
  obtain ⟨m, hm, hthrough⟩ := hstrokes 4 (1 / 4) hn (Scalar.overCount_real (by omega) drift.length)
  exact ⟨hn, hwhole rfl, order, m, hperm, hm, hthrough⟩

end MixedDemands

end BeamOptics
