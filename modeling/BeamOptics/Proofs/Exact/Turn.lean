import BeamOptics.Proofs.Exact.Flow
import BeamOptics.Proofs.Tracking.Transport

/-!
# Affine turns

Without radiation that has an effect nothing can stop a bunch in exact arithmetic: a slice of an element, an element,
and so any range, takes every particle of a bunch through one and the same affine map.
-/

namespace BeamOptics

/-- A linear map of phase space and a shift after it. -/
structure AffineTurn where
  matrix : TransferMap ℝ
  shift : PhaseVector ℝ

namespace AffineTurn

noncomputable def act (t : AffineTurn) (v : PhaseVector ℝ) : PhaseVector ℝ := t.matrix.act v + t.shift

noncomputable def identity : AffineTurn := ⟨.identity, 0⟩

noncomputable def andThen (t u : AffineTurn) : AffineTurn := ⟨u.matrix.comp t.matrix, u.matrix.act t.shift + u.shift⟩

theorem act_identity (v : PhaseVector ℝ) : identity.act v = v := by
  rw [act, identity, TransferMap.identity_act_real, PhaseVector.add_zero_real]

theorem act_andThen (t u : AffineTurn) (v : PhaseVector ℝ) : (t.andThen u).act v = u.act (t.act v) := by
  simp only [act, andThen, TransferMap.comp_act_real, TransferMap.act_add_real, PhaseVector.add_assoc_real]

noncomputable def times (t : AffineTurn) : Nat → AffineTurn
  | 0 => identity
  | n + 1 => t.andThen (t.times n)

noncomputable def lengthening (a : ℝ) : AffineTurn := ⟨.identity, .ofCt a⟩

theorem act_lengthening (a : ℝ) (v : PhaseVector ℝ) : (lengthening a).act v = v + .ofCt a := by
  rw [act, lengthening, TransferMap.identity_act_real]

theorem mapParticles_identity (b : Bunch ℝ) : b.mapParticles identity.act = b := by
  simp only [Bunch.mapParticles, funext act_identity, List.map_id_fun', id_eq]

theorem mapParticles_andThen (t u : AffineTurn) (b : Bunch ℝ) :
    b.mapParticles (t.andThen u).act = (b.mapParticles t.act).mapParticles u.act := by
  simp only [Bunch.mapParticles, List.map_map, funext (t.act_andThen u)]
  rfl

end AffineTurn

/-- A way to take a bunch somewhere succeeds for every bunch and takes all particles through an affine turn. -/
def Carries (way : Bunch ℝ → Except Fault (Bunch ℝ)) (t : AffineTurn) : Prop :=
  ∀ b, way b = .ok (b.mapParticles t.act)

namespace Carries

theorem refl : Carries .ok AffineTurn.identity := by
  intro b
  rw [AffineTurn.mapParticles_identity]

theorem congr {way : Bunch ℝ → Except Fault (Bunch ℝ)} {t u : AffineTurn} (h : Carries way t)
    (hact : ∀ v, t.act v = u.act v) : Carries way u := by
  intro b
  rw [h b, funext hact]

theorem bind {way way' : Bunch ℝ → Except Fault (Bunch ℝ)} {t u : AffineTurn} (h : Carries way t)
    (h' : Carries way' u) : Carries (fun b => way b >>= way') (t.andThen u) := by
  intro b
  refine bind_eq_ok_iff.mpr ⟨_, h b, ?_⟩
  rw [AffineTurn.mapParticles_andThen]
  exact h' _

end Carries

/-! ### Processes -/

namespace BeamProcess

variable {α : Type} [Scalar α]

/-- In an element the process does nothing but ask for steps. -/
def OnlySlices (p : BeamProcess α) (e : Element α) : Prop :=
  (∀ ds b, p.act e ds b = .ok b) ∧ ∃ n, 1 ≤ n ∧ p.requestedSteps e = .ok n

/-- In an element the process is no radiation that has an effect. -/
def IsMild (p : BeamProcess α) (e : Element α) : Prop := p.kind ≠ .radiation ∨ p.OnlySlices e

theorem requestedSteps_of_isMild {p : BeamProcess α} {e : Element α} (h : p.IsMild e) :
    ∃ n, 1 ≤ n ∧ p.requestedSteps e = .ok n := by
  rcases h with hkind | honly
  · cases p with
    | radiation r => exact absurd rfl hkind
    | ringDelta scale => exact ⟨1, le_rfl, rfl⟩
    | finiteness detailed => exact ⟨1, le_rfl, rfl⟩
  · exact honly.2

/-- The path length that a process gives to every particle, for each unit of length of an element. -/
noncomputable def stretch (e : Element ℝ) : BeamProcess ℝ → ℝ
  | radiation _ => 0
  | ringDelta scale => if e.isBend then -scale else 0
  | finiteness _ => 0

theorem carries_nothing {a : ℝ} (h : a = 0) : Carries .ok (.lengthening a) := by
  refine Carries.refl.congr fun v => ?_
  rw [AffineTurn.act_identity, AffineTurn.act_lengthening, h, PhaseVector.ofCt_zero, PhaseVector.add_zero_real]

theorem carries_ringDelta (scale : ℝ) (e : Element ℝ) (ds : ℝ) :
    Carries ((ringDelta scale).act e ds) (.lengthening ((ringDelta scale).stretch e * ds)) := by
  intro b
  rw [act, stretch]
  cases hbend : e.isBend with
  | false => exact carries_nothing (zero_mul ds) b
  | true =>
    by_cases hds : ds = 0
    · subst hds
      simp only [Scalar.beq_real, decide_true, Bool.or_true, if_true]
      exact carries_nothing (mul_zero _) b
    · simp only [Scalar.beq_real, hds, decide_false, Bool.not_true, Bool.or_self, Bool.false_eq_true, if_false, if_true]
      refine congrArg (fun f => Except.ok (b.mapParticles f)) (funext fun v => ?_)
      rw [AffineTurn.act_lengthening]
      apply PhaseVector.ext_get
      intro c
      rw [PhaseVector.get_add]
      cases c with
      | ct => exact (sub_eq_add_neg _ _).trans (congrArg _ (neg_mul scale ds).symm)
      | _ => exact (add_zero _).symm

theorem stretch_of_onlySlices {p : BeamProcess ℝ} {e : Element ℝ} (h : p.OnlySlices e) : p.stretch e = 0 := by
  cases p with
  | radiation r => rfl
  | finiteness detailed => rfl
  | ringDelta scale =>
    -- what becomes of one particle over a unit of length shows the stretch
    have hact := (carries_ringDelta scale e 1 ⟨1, 1, [0]⟩).symm.trans (h.1 1 ⟨1, 1, [0]⟩)
    have hparticle : (AffineTurn.lengthening ((ringDelta scale).stretch e * 1)).act 0 = 0 :=
      (List.cons.inj (congrArg Bunch.particles (Except.ok.inj hact))).1
    rw [AffineTurn.act_lengthening, mul_one] at hparticle
    have hct := congrArg (fun v : PhaseVector ℝ => v.get .ct) hparticle
    rw [PhaseVector.get_add, PhaseVector.get_zero] at hct
    exact (zero_add _).symm.trans hct

/-- Every real number is finite. -/
theorem act_finiteness_real (detailed : Bool) (e : Element ℝ) (ds : ℝ) : (finiteness detailed).act e ds = .ok := by
  funext b
  have hfinite : nonFinite b.particles = [] := by simp [nonFinite, PhaseVector.isFinite]
  rw [act, hfinite]

theorem carries_act {p : BeamProcess ℝ} {e : Element ℝ} (h : p.IsMild e) (ds : ℝ) :
    Carries (p.act e ds) (.lengthening (p.stretch e * ds)) := by
  rcases h with hkind | honly
  · cases p with
    | radiation r => exact absurd rfl hkind
    | ringDelta scale => exact carries_ringDelta scale e ds
    | finiteness detailed =>
      intro b
      rw [act_finiteness_real]
      exact carries_nothing (zero_mul ds) b
  · intro b
    rw [honly.1, stretch_of_onlySlices honly]
    exact carries_nothing (zero_mul ds) b

end BeamProcess

namespace Pass

theorem exists_counts {α : Type} [Scalar α] {processes : List (BeamProcess α)} {e : Element α}
    (h : ∀ p ∈ processes, ∃ n, 1 ≤ n ∧ p.requestedSteps e = .ok n) :
    ∃ counts, processes.mapM (fun p => p.requestedSteps e) = .ok counts ∧ ∀ n ∈ counts, 1 ≤ n := by
  induction processes with
  | nil => exact ⟨[], rfl, fun n hn => absurd hn List.not_mem_nil⟩
  | cons p rest ih =>
    obtain ⟨n, hn, hasked⟩ := h p List.mem_cons_self
    obtain ⟨counts, hcounts, hall⟩ := ih fun q hq => h q (List.mem_cons_of_mem p hq)
    refine ⟨n :: counts, ?_, List.forall_mem_cons.mpr ⟨hn, hall⟩⟩
    rw [List.mapM_cons, hasked, hcounts]
    rfl

theorem le_foldl_max (n : Nat) (counts : List Nat) : n ≤ counts.foldl max n := by
  induction counts generalizing n with
  | nil => exact le_rfl
  | cons m rest ih => exact (le_max_left n m).trans (ih (max n m))

theorem exists_stepCount_of_requests {α : Type} [Scalar α] {processes : List (BeamProcess α)} {e : Element α}
    (h : ∀ p ∈ processes, ∃ n, 1 ≤ n ∧ p.requestedSteps e = .ok n) : ∃ n, n ≠ 0 ∧ stepCount processes e = .ok n := by
  obtain ⟨counts, hcounts, hall⟩ := exists_counts h
  unfold stepCount
  split
  · rw [hcounts]
    cases counts with
    | nil => exact ⟨1, one_ne_zero, rfl⟩
    | cons n rest =>
      have hn : 1 ≤ max 0 n := (hall n List.mem_cons_self).trans (le_max_right 0 n)
      exact ⟨_, Nat.one_le_iff_ne_zero.mp (hn.trans (le_foldl_max _ rest)), rfl⟩
  · exact ⟨1, one_ne_zero, rfl⟩

theorem exists_stepCount {α : Type} [Scalar α] {processes : List (BeamProcess α)} {e : Element α}
    (h : ∀ p ∈ processes, p.IsMild e) : ∃ n, n ≠ 0 ∧ stepCount processes e = .ok n :=
  exists_stepCount_of_requests fun p hp => BeamProcess.requestedSteps_of_isMild (h p hp)

/-- Processes without effective radiation only lengthen the path, all of them together by the sum. -/
theorem carries_applyAll {processes : List (BeamProcess ℝ)} {e : Element ℝ} (h : ∀ p ∈ processes, p.IsMild e)
    (ds : ℝ) :
    Carries (applyAll e ds processes).reach (.lengthening ((processes.map fun p => p.stretch e).sum * ds)) := by
  induction processes with
  | nil => exact BeamProcess.carries_nothing (zero_mul ds)
  | cons p rest ih =>
    have hfirst := BeamProcess.carries_act (h p List.mem_cons_self) ds
    have hrest := ih fun q hq => h q (List.mem_cons_of_mem p hq)
    have hboth : Carries (applyAll e ds (p :: rest)).reach _ := fun b =>
      (reach_applyAll_cons e ds p rest b).trans (hfirst.bind hrest b)
    refine hboth.congr fun v => ?_
    rw [AffineTurn.act_andThen, AffineTurn.act_lengthening, AffineTurn.act_lengthening, AffineTurn.act_lengthening,
      PhaseVector.add_assoc_real, PhaseVector.ofCt_add, List.map_cons, List.sum_cons, add_mul]

/-! ### Elements and lines -/

theorem carries_slice {processes : List (BeamProcess ℝ)} {e : Element ℝ} (h : ∀ p ∈ processes, p.IsMild e)
    (m : TransferMap ℝ) (kick : PhaseVector ℝ) (ds : ℝ) :
    Carries (slice processes e m kick ds).reach
      (AffineTurn.andThen ⟨m, kick⟩ (.lengthening ((processes.map fun p => p.stretch e).sum * ds))) := by
  intro b
  rw [AffineTurn.mapParticles_andThen]
  exact carries_applyAll h ds (b.mapParticles (AffineTurn.act ⟨m, kick⟩))

theorem carries_slices {processes : List (BeamProcess ℝ)} {e : Element ℝ} {m : TransferMap ℝ} {kick : PhaseVector ℝ}
    {ds : ℝ} {t : AffineTurn} (h : Carries (slice processes e m kick ds).reach t) (n : Nat) :
    Carries (slices processes e m kick ds n).reach (t.times n) := by
  induction n with
  | zero => exact Carries.refl
  | succ n ih =>
    intro b
    rw [slices, Action.reach_bind]
    exact h.bind ih b

/-- Any count of slices but none repeats the turn of one of them. -/
theorem carries_inSlices {processes : List (BeamProcess ℝ)} {e : Element ℝ} (h : ∀ p ∈ processes, p.IsMild e)
    (signals : Signals ℝ) {n : Nat} (hn : n ≠ 0) {m : TransferMap ℝ} (hm : e.transferMap (e.length / n) = .ok m) :
    Carries (inSlices processes signals e n)
      (AffineTurn.times (AffineTurn.andThen ⟨m, e.kick (signals.strength e) (e.length / n)⟩
        (.lengthening (((BeamProcess.inOrder BeamProcess.kind processes).map fun p => p.stretch e).sum *
          (e.length / n)))) n) := by
  have hordered : ∀ p ∈ BeamProcess.inOrder BeamProcess.kind processes, p.IsMild e := fun p hp =>
    h p (BeamProcess.mem_of_mem_inOrder hp)
  rw [inSlices_eq_reach (Scalar.overCount_real hn e.length) hm]
  exact carries_slices (carries_slice hordered m _ _) n

theorem carries_through {processes : List (BeamProcess ℝ)} {e : Element ℝ} (h : ∀ p ∈ processes, p.IsMild e)
    (signals : Signals ℝ) : ∃ t, Carries (through processes signals e) t := by
  obtain ⟨n, hn, hcount⟩ := exists_stepCount h
  obtain ⟨m, hm⟩ := e.exists_transferMap (e.length / n)
  rw [through_eq_inSlices hcount]
  exact ⟨_, carries_inSlices h signals hn hm⟩

/-- What turns of elements have in common, when it stays as one turn follows another, the turn of a line has too. -/
theorem exists_turn_along {P : AffineTurn → Prop} (hidentity : P .identity)
    (handThen : ∀ t u, P t → P u → P (t.andThen u)) {processes : List (BeamProcess ℝ)} {signals : Signals ℝ}
    {elements : List (Element ℝ)} (h : ∀ e ∈ elements, ∃ t, P t ∧ Carries (through processes signals e) t) :
    ∃ t : AffineTurn, P t ∧ ∀ index b, along processes signals index elements b = .ok (b.mapParticles t.act) := by
  induction elements with
  | nil =>
    refine ⟨.identity, hidentity, ?_⟩
    intro index b
    rw [along, AffineTurn.mapParticles_identity]
  | cons e rest ih =>
    obtain ⟨t, hPt, ht⟩ := h e List.mem_cons_self
    obtain ⟨u, hPu, hu⟩ := ih fun f hf => h f (List.mem_cons_of_mem e hf)
    refine ⟨t.andThen u, handThen t u hPt hPu, ?_⟩
    intro index b
    rw [along, ht b, AffineTurn.mapParticles_andThen]
    exact hu (index + 1) _

theorem carries_along {processes : List (BeamProcess ℝ)} {elements : List (Element ℝ)}
    (h : ∀ e ∈ elements, ∀ p ∈ processes, p.IsMild e) (signals : Signals ℝ) :
    ∃ t : AffineTurn, ∀ index b, along processes signals index elements b = .ok (b.mapParticles t.act) := by
  have hthrough : ∀ e ∈ elements, ∃ t, True ∧ Carries (through processes signals e) t := by
    intro e he
    obtain ⟨t, ht⟩ := carries_through (h e he) signals
    exact ⟨t, trivial, ht⟩
  obtain ⟨t, -, ht⟩ := exists_turn_along trivial (fun _ _ _ _ => trivial) hthrough
  exact ⟨t, ht⟩

end Pass

/-- Without effective radiation a range is an affine turn. -/
theorem Range.carries_transport {processes : List (BeamProcess ℝ)} {r : Range ℝ}
    (h : ∀ e ∈ r.elements, ∀ p ∈ processes, p.IsMild e) (signals : Signals ℝ) :
    ∃ t, Carries (r.transport processes signals) t := by
  obtain ⟨t, ht⟩ := Pass.carries_along h signals
  refine ⟨t, ?_⟩
  intro b
  rw [Range.transport, ht]
  rfl

end BeamOptics
