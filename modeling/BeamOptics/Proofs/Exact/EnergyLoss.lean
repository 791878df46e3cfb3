import Mathlib.Order.Iterate
import BeamOptics.Proofs.Exact.Radiation
import BeamOptics.Proofs.Exact.Settings
import BeamOptics.Proofs.Tracking.ProcessOrder

/-!
# The loss of energy

No map but an explicit one changes the momentum of a particle, and of the processes only radiation does. So as long as
the reference stays, the deviation of a particle from it goes its own way: every slice of a bend takes from it what a
function of the deviation, the reference and the bend says, and nothing else along a line has a part in it.
-/

namespace BeamOptics

/-- The deviations of the particles from the reference momentum, in units of it. -/
def Bunch.deviations (b : Bunch ℝ) : List ℝ := b.particles.map PhaseVector.dp

theorem Bunch.forall₂_of_deviations {b b' : Bunch ℝ} {f : ℝ → ℝ} (h : b'.deviations = b.deviations.map f) :
    List.Forall₂ (fun v v' => v'.dp = f v.dp) b.particles b'.particles := by
  rw [deviations, deviations, List.map_map, ← List.forall₂_eq_eq_eq, List.forall₂_map_left_iff,
    List.forall₂_map_right_iff] at h
  exact h.flip

/-! ### The drain of a bend -/

namespace Radiation

variable {momentum h ds : ℝ}

/-- The deviation of a particle that has radiated once over a slice. -/
noncomputable def drain (momentum h ds dp : ℝ) : ℝ := dp - loss (momentum ^ 3) h ds dp

theorem loss_nonneg (hmomentum : 0 ≤ momentum) (hds : 0 ≤ ds) (dp : ℝ) : 0 ≤ loss (momentum ^ 3) h ds dp := by
  have hconstant := Scalar.radiation_pos
  have hloss : loss (momentum ^ 3) h ds dp = Scalar.radiation * momentum ^ 3 * (1 + dp) ^ 2 * h ^ 2 * ds := by
    rw [loss, Scalar.square]
    ring
  rw [hloss]
  positivity

theorem drain_le_id (hmomentum : 0 ≤ momentum) (hds : 0 ≤ ds) : drain momentum h ds ≤ id := by
  intro dp
  exact sub_le_self dp (loss_nonneg hmomentum hds dp)

theorem drain_of_straight (momentum ds : ℝ) : drain momentum 0 ds = id := by
  funext dp
  simp [drain, loss]

theorem drain_of_no_length (momentum h : ℝ) : drain momentum h 0 = id := by
  funext dp
  simp [drain, loss]

end Radiation

/-- The passage of a bend: its curvature, the length of a slice, and the count of slices. -/
structure Arc where
  curvature : ℝ
  step : ℝ
  count : Nat

namespace Arc

variable {momentum : ℝ} {radiations : Nat} {arcs : List Arc}

/-- The deviation behind a bend where each slice radiates as often as there are processes of radiation. -/
noncomputable def drain (momentum : ℝ) (radiations : Nat) (a : Arc) : ℝ → ℝ :=
  (Radiation.drain momentum a.curvature a.step)^[radiations * a.count]

/-- The deviation behind one bend after the other. -/
noncomputable def drainAlong (momentum : ℝ) (radiations : Nat) : List Arc → ℝ → ℝ
  | [] => id
  | a :: rest => drainAlong momentum radiations rest ∘ a.drain momentum radiations

theorem drainAlong_le_id (hmomentum : 0 ≤ momentum) (hstep : ∀ a ∈ arcs, 0 ≤ a.step) :
    drainAlong momentum radiations arcs ≤ id := by
  induction arcs with
  | nil => exact le_rfl
  | cons a rest ih =>
    have hdrain : a.drain momentum radiations ≤ id :=
      Function.iterate_le_id_of_le_id (Radiation.drain_le_id hmomentum (hstep a List.mem_cons_self)) _
    have hrest := ih fun c hc => hstep c (List.mem_cons_of_mem a hc)
    exact fun dp => (hrest (a.drain momentum radiations dp)).trans (hdrain dp)

theorem drainAlong_eq_id (h : ∀ a ∈ arcs, a.drain momentum radiations = id) :
    drainAlong momentum radiations arcs = id := by
  induction arcs with
  | nil => rfl
  | cons a rest ih =>
    rw [drainAlong, h a List.mem_cons_self, ih fun c hc => h c (List.mem_cons_of_mem a hc), Function.id_comp]

theorem drain_of_no_radiation (momentum : ℝ) (a : Arc) : a.drain momentum 0 = id := by
  rw [drain, zero_mul, Function.iterate_zero]

theorem drain_of_straight {a : Arc} (h : a.curvature = 0) (momentum : ℝ) (radiations : Nat) :
    a.drain momentum radiations = id := by
  rw [drain, h, Radiation.drain_of_straight, Function.iterate_id]

end Arc

/-! ### Ways that drain deviations -/

/-- Whatever way of bunches at a reference momentum succeeds keeps the reference and takes each deviation through one
and the same function. -/
def Drains {ε : Type} (momentum : ℝ) (f : ℝ → ℝ) (way : Bunch ℝ → Except ε (Bunch ℝ)) : Prop :=
  ∀ b b', way b = .ok b' → b.momentum = momentum → b'.momentum = momentum ∧ b'.deviations = b.deviations.map f

namespace Drains

variable {ε ε' : Type} {momentum : ℝ} {f g : ℝ → ℝ} {way way' : Bunch ℝ → Except ε (Bunch ℝ)}

theorem map {f : ℝ → ℝ} {image : PhaseVector ℝ → PhaseVector ℝ} (h : ∀ v, (image v).dp = f v.dp) :
    Drains momentum f fun b => (.ok (b.mapParticles image) : Except ε (Bunch ℝ)) := by
  intro b b' hway hb
  obtain rfl := Except.ok.inj hway
  refine ⟨hb, ?_⟩
  simp only [Bunch.deviations, Bunch.mapParticles, List.map_map]
  exact List.map_congr_left fun v _ => h v

theorem refl : Drains momentum id (.ok : Bunch ℝ → Except ε (Bunch ℝ)) := by
  intro b b' hway hb
  obtain rfl := Except.ok.inj hway
  exact ⟨hb, (List.map_id _).symm⟩

theorem bind (h : Drains momentum f way) (h' : Drains momentum g way') :
    Drains momentum (g ∘ f) fun b => way b >>= way' := by
  intro b b'' hboth hb
  obtain ⟨b', hfirst, hsecond⟩ := bind_eq_ok_iff.mp hboth
  obtain ⟨hmomentum, hdeviations⟩ := h b b' hfirst hb
  obtain ⟨hmomentum', hdeviations'⟩ := h' b' b'' hsecond hmomentum
  exact ⟨hmomentum', by rw [hdeviations', hdeviations, List.map_map]⟩

theorem mapError (h : Drains momentum f way) (errors : ε → ε') :
    Drains momentum f fun b => (way b).mapError errors :=
  fun b b' hway => h b b' (mapError_eq_ok_iff.mp hway)

end Drains

namespace BeamProcess

/-- The count of processes of radiation. -/
def radiations {α : Type} (processes : List (BeamProcess α)) : Nat := (ofKind kind .radiation processes).length

theorem drains_radiation {r : Radiation ℝ} (h : r.rereference = false) (momentum : ℝ) (e : Element ℝ) (ds : ℝ) :
    Drains momentum (Radiation.drain momentum e.curvature ds) ((radiation r).act e ds) := by
  intro b b' hact hb
  replace hact := mapError_eq_ok_iff.mp hact
  by_cases hradiates : Radiation.Radiates e ds b
  · rw [Radiation.act_of_radiates hradiates, h] at hact
    subst hb
    exact Drains.map (fun v => rfl) b b' hact rfl
  · rw [Radiation.act_of_not_radiates hradiates] at hact
    obtain rfl := Except.ok.inj hact
    refine ⟨hb, ?_⟩
    -- nothing to lose energy on, or nothing to lose it
    simp only [Radiation.Radiates, not_and_or, not_not, Bool.not_eq_true] at hradiates
    rcases hradiates with hbend | rfl | hparticles
    · rw [Element.curvature_of_isBend_false hbend, Radiation.drain_of_straight, List.map_id]
    · rw [Radiation.drain_of_no_length, List.map_id]
    · rw [Bunch.deviations, hparticles]
      rfl

theorem radiations_cons {α : Type} (p : BeamProcess α) (rest : List (BeamProcess α)) :
    radiations (p :: rest) = radiations rest + radiations [p] := by
  rw [← List.singleton_append, radiations, ofKind_append, List.length_append, Nat.add_comm, radiations, radiations]

/-- A process radiates once, or not at all. -/
theorem drains_act {p : BeamProcess ℝ} (h : p.rereferences = false) (momentum : ℝ) (e : Element ℝ) (ds : ℝ) :
    Drains momentum (Radiation.drain momentum e.curvature ds)^[radiations [p]] (p.act e ds) := by
  cases p with
  | radiation r => exact drains_radiation h momentum e ds
  | ringDelta scale =>
    intro b b' hact
    rw [act] at hact
    split at hact
    · exact Drains.refl b b' hact
    · exact Drains.map (fun v => rfl) b b' hact
  | finiteness detailed =>
    rw [act_finiteness_real]
    exact Drains.refl

end BeamProcess

namespace Pass

variable {processes : List (BeamProcess ℝ)} {e : Element ℝ}

theorem drains_applyAll (h : ∀ p ∈ processes, p.rereferences = false) (momentum : ℝ) (e : Element ℝ) (ds : ℝ) :
    Drains momentum (Radiation.drain momentum e.curvature ds)^[BeamProcess.radiations processes]
      (applyAll e ds processes).reach := by
  induction processes with
  | nil => exact Drains.refl
  | cons p rest ih =>
    have hfirst := BeamProcess.drains_act (h p List.mem_cons_self) momentum e ds
    have hrest := ih fun q hq => h q (List.mem_cons_of_mem p hq)
    rw [BeamProcess.radiations_cons, Function.iterate_add]
    intro b b' hreach
    rw [reach_applyAll_cons] at hreach
    exact hfirst.bind hrest b b' hreach

theorem drains_slices {m : TransferMap ℝ} {kick : PhaseVector ℝ} {momentum ds : ℝ}
    (hstays : ∀ p ∈ processes, p.rereferences = false) (hmap : ∀ v, (m.act v + kick).dp = v.dp) (n : Nat) :
    Drains momentum (Radiation.drain momentum e.curvature ds)^[BeamProcess.radiations processes * n]
      (slices processes e m kick ds n).reach := by
  have hslice : Drains momentum (Radiation.drain momentum e.curvature ds)^[BeamProcess.radiations processes]
      (slice processes e m kick ds).reach :=
    (Drains.map (ε := Fault) (f := id) hmap).bind (drains_applyAll hstays momentum e ds)
  rw [Function.iterate_mul]
  induction n with
  | zero => exact Drains.refl
  | succ n ih =>
    intro b b' hreach
    rw [slices, Action.reach_bind] at hreach
    exact hslice.bind ih b b' hreach

/-- Behind an element each deviation is what is left of it after as many slices as the element is passed in. -/
theorem drains_through (hstays : ∀ p ∈ processes, p.rereferences = false) (himplicit : e.optics.explicit = false)
    {n : Nat} (hcount : stepCount processes e = .ok n) (momentum : ℝ) (signals : Signals ℝ) :
    Drains momentum (Radiation.drain momentum e.curvature (e.length / n))^[BeamProcess.radiations processes * n]
      (through processes signals e) := by
  intro b b' hthrough
  obtain ⟨cut, hcut, hpass⟩ := exists_of_through hthrough
  obtain ⟨hcount', hds, hm⟩ := of_slicing hcut
  obtain rfl : cut.count = n := Except.ok.inj (hcount'.symm.trans hcount)
  have hordered : ∀ p ∈ BeamProcess.inOrder BeamProcess.kind processes, p.rereferences = false :=
    fun p hp => hstays p (BeamProcess.mem_of_mem_inOrder hp)
  have hradiations : BeamProcess.radiations (BeamProcess.inOrder BeamProcess.kind processes) =
      BeamProcess.radiations processes := congrArg List.length (BeamProcess.ofKind_inOrder _ _)
  have hmap := Element.dp_act_add_kick himplicit hm (signals.strength e)
  rw [← hradiations, ← Scalar.eq_of_overCount_real hds]
  exact drains_slices hordered hmap cut.count b b' hpass

/-- The bends of a line, in the counts of slices that the processes ask for. -/
noncomputable def arcs (processes : List (BeamProcess ℝ)) (elements : List (Element ℝ)) : List Arc :=
  elements.filterMap fun e =>
    if e.isBend then (stepCount processes e).toOption.map fun n : Nat => ⟨e.curvature, e.length / n, n⟩ else none

theorem exists_of_mem_arcs {elements : List (Element ℝ)} {a : Arc} (h : a ∈ arcs processes elements) :
    ∃ e ∈ elements, e.isBend = true ∧ ∃ n : Nat, a = ⟨e.curvature, e.length / n, n⟩ := by
  obtain ⟨e, he, hsome⟩ := List.mem_filterMap.mp h
  split at hsome
  · obtain ⟨n, -, rfl⟩ := Option.map_eq_some_iff.mp hsome
    exact ⟨e, he, ‹_›, n, rfl⟩
  · cases hsome

/-- Along a line each deviation is drained by its bends, one after the other. -/
theorem drains_along {elements : List (Element ℝ)} (hstays : ∀ p ∈ processes, p.rereferences = false)
    (himplicit : ∀ e ∈ elements, e.optics.explicit = false) (momentum : ℝ) (signals : Signals ℝ) (index : Nat) :
    Drains momentum (Arc.drainAlong momentum (BeamProcess.radiations processes) (arcs processes elements))
      (along processes signals index elements) := by
  induction elements generalizing index with
  | nil => exact Drains.refl
  | cons e rest ih =>
    have hrest := ih (fun f hf => himplicit f (List.mem_cons_of_mem e hf)) (index + 1)
    cases hcount : stepCount processes e with
    | error fault =>
      intro b b' halong
      rw [along, through_eq, hcount] at halong
      cases halong
    | ok n =>
      have hfirst := drains_through hstays (himplicit e List.mem_cons_self) hcount momentum signals
      have hboth := (hfirst.mapError fun fault => (index, fault)).bind hrest
      cases hbend : e.isBend with
      | true =>
        have harcs : arcs processes (e :: rest) = ⟨e.curvature, e.length / n, n⟩ :: arcs processes rest :=
          List.filterMap_cons_some (by simp [hbend, hcount, Except.toOption])
        rw [harcs]
        exact hboth
      | false =>
        have harcs : arcs processes (e :: rest) = arcs processes rest :=
          List.filterMap_cons_none (by simp [hbend])
        rw [Element.curvature_of_isBend_false hbend, Radiation.drain_of_straight, Function.iterate_id,
          Function.comp_id] at hboth
        rw [harcs]
        exact hboth

end Pass

namespace Station

/-- A tracker of a range without explicit maps, with processes that leave the reference momentum where it is. -/
structure KeepsReference (s : Station ℝ) (r : Range ℝ) : Prop where
  range : s.tracker.range = some r
  implicit : ∀ e ∈ r.elements, e.optics.explicit = false
  length : ∀ e ∈ r.elements, 0 ≤ e.length
  stays : ∀ p ∈ s.plant.processesOf s.tracker.processes, p.rereferences = false

/-- The bends of a range, in the counts of slices that the attached processes ask for. -/
noncomputable def arcs (s : Station ℝ) (r : Range ℝ) : List Arc :=
  Pass.arcs (s.plant.processesOf s.tracker.processes) r.elements

/-- The count of attached processes of radiation. -/
def radiations (s : Station ℝ) : Nat := BeamProcess.radiations (s.plant.processesOf s.tracker.processes)

variable {s : Station ℝ} {r : Range ℝ}

theorem deviations_of_tracked (h : s.KeepsReference r) {b b' : Bunch ℝ} (htracked : s.tracked b = .ok b') :
    b'.deviations = b.deviations.map (Arc.drainAlong b.momentum s.radiations (s.arcs r)) := by
  have htransport : s.transport r b = .ok b' := (outcome_trackBunch h.range b).symm.trans htracked
  have hdrains := Pass.drains_along h.stays h.implicit b.momentum s.plant.signals r.first
  exact (hdrains b b' (mapError_eq_ok_iff.mp htransport) rfl).2

theorem exists_tracked (hset : ∀ p ∈ s.plant.processesOf s.tracker.processes, p.IsSet)
    (hrange : s.tracker.range = some r) (b : Bunch ℝ) : ∃ b', s.tracked b = .ok b' := by
  obtain ⟨b', halong⟩ := Pass.exists_along hset s.plant.signals r.first r.elements b
  exact ⟨b', (outcome_trackBunch hrange b).trans (mapError_eq_ok_iff.mpr halong)⟩

theorem drainAlong_le_id (h : s.KeepsReference r) {momentum : ℝ} (hmomentum : 0 ≤ momentum) :
    Arc.drainAlong momentum s.radiations (s.arcs r) ≤ id := by
  refine Arc.drainAlong_le_id hmomentum fun a ha => ?_
  obtain ⟨e, he, -, n, rfl⟩ := Pass.exists_of_mem_arcs ha
  exact div_nonneg (h.length e he) (Nat.cast_nonneg n)

theorem drainAlong_of_no_radiation (h : ∀ p ∈ s.plant.processesOf s.tracker.processes, p.kind ≠ .radiation)
    (momentum : ℝ) : Arc.drainAlong momentum s.radiations (s.arcs r) = id := by
  have hradiations : s.radiations = 0 := by
    refine List.length_eq_zero_iff.mpr (List.eq_nil_iff_forall_not_mem.mpr fun p hp => ?_)
    obtain ⟨hmem, hkind⟩ := BeamProcess.mem_ofKind.mp hp
    exact h p hmem hkind
  rw [hradiations]
  exact Arc.drainAlong_eq_id fun a _ => Arc.drain_of_no_radiation momentum a

theorem drainAlong_of_straight
    (h : ∀ e ∈ r.elements, ∀ angle k1, e.optics = .bend angle k1 → angle = 0) (momentum : ℝ) :
    Arc.drainAlong momentum s.radiations (s.arcs r) = id := by
  refine Arc.drainAlong_eq_id fun a ha => ?_
  obtain ⟨e, he, -, n, rfl⟩ := Pass.exists_of_mem_arcs ha
  refine Arc.drain_of_straight ?_ momentum _
  unfold Element.curvature
  split
  · rename_i angle k1 hoptics
    rw [h e he angle k1 hoptics, zero_div]
  · rfl

/-- As long as the reference momentum stays, particles only lose energy along a range, and none at all without
processes of radiation or without curvature. What is left of a deviation is a function of it, of the reference
momentum, and of the bends, their slices and how many processes radiate: other coordinates, other elements and other
processes have no part in it. -/
theorem radiation_only_takes_energy (h : s.KeepsReference r) {b : Bunch ℝ} (hmomentum : 0 < b.momentum) :
    ((∀ p ∈ s.plant.processesOf s.tracker.processes, p.IsSet) → ∃ b', s.tracked b = .ok b') ∧
    ∀ b', s.tracked b = .ok b' →
      List.Forall₂ (fun v v' => v'.dp ≤ v.dp) b.particles b'.particles ∧
      ((∀ p ∈ s.plant.processesOf s.tracker.processes, p.kind ≠ .radiation) ∨
        (∀ e ∈ r.elements, ∀ angle k1, e.optics = .bend angle k1 → angle = 0) → b'.deviations = b.deviations) ∧
      b'.deviations = b.deviations.map (Arc.drainAlong b.momentum s.radiations (s.arcs r)) ∧
      ∀ (t : Station ℝ) (r₁ : Range ℝ) (c c' : Bunch ℝ), t.KeepsReference r₁ → t.arcs r₁ = s.arcs r →
        t.radiations = s.radiations → c.momentum = b.momentum → c.deviations = b.deviations →
        t.tracked c = .ok c' → c'.deviations = b'.deviations := by
  refine ⟨fun hset => exists_tracked hset h.range b, fun b' hb' => ?_⟩
  have hdeviations := deviations_of_tracked h hb'
  refine ⟨?_, ?_, hdeviations, ?_⟩
  · refine (Bunch.forall₂_of_deviations hdeviations).imp fun v v' hv' => ?_
    rw [hv']
    exact drainAlong_le_id h hmomentum.le v.dp
  · rintro (hnone | hstraight)
    · rw [hdeviations, drainAlong_of_no_radiation hnone, List.map_id]
    · rw [hdeviations, drainAlong_of_straight hstraight, List.map_id]
  · intro t r₁ c c' ht harcs hradiations hreference hsame hc'
    rw [deviations_of_tracked ht hc', hdeviations, harcs, hradiations, hreference, hsame]

end Station

namespace Cell

/-- A drift and the dipole. -/
noncomputable def bending : Range ℝ := ⟨0, [drift, dipole]⟩

theorem implicit_bending : ∀ e ∈ bending.elements, e.optics.explicit = false := by
  simp [bending, drift, dipole, Optics.explicit]

/-- A tracker of them, where particles radiate once. -/
noncomputable def radiating : Station ℝ where
  tracker := { range := some bending, processes := [0] }
  plant := { processes := Table.empty.insert 0 (.radiation ⟨1, 0, false⟩) }

theorem processesOf_radiating :
    radiating.plant.processesOf radiating.tracker.processes = [.radiation ⟨1, 0, false⟩] := by
  rw [Plant.processesOf]
  exact List.filterMap_cons_some (Table.get?_insert_self _ _ _)

theorem keepsReference_radiating : radiating.KeepsReference bending where
  range := rfl
  implicit := implicit_bending
  length := by simp [bending, drift, dipole]
  stays := by
    rw [processesOf_radiating]
    exact List.forall_mem_singleton.mpr rfl

theorem isSet_radiating : ∀ p ∈ radiating.plant.processesOf radiating.tracker.processes, p.IsSet := by
  rw [processesOf_radiating]
  exact List.forall_mem_singleton.mpr (.inr le_rfl)

theorem arcs_radiating : radiating.arcs bending = [⟨1, 1, 1⟩] := by
  have hcount : Pass.stepCount [.radiation ⟨1, 0, false⟩] dipole = .ok 1 :=
    Pass.stepCount_fixedSteps ⟨1, 0, false⟩ 1 rfl
  have hbend : dipole.isBend = true := rfl
  have hcurvature : dipole.curvature = 1 := div_one (1 : ℝ)
  have hstep : dipole.length / (1 : Nat) = 1 := by rw [Nat.cast_one, div_one]; rfl
  rw [Station.arcs, processesOf_radiating, Pass.arcs, bending, List.filterMap_cons_none rfl]
  refine List.filterMap_cons_some ?_
  rw [if_pos hbend, hcount]
  exact congrArg some (congrArg₂ (Arc.mk · · 1) hcurvature hstep)

/-- Two particles at the reference, one of them far off the axis. -/
noncomputable def stray : Bunch ℝ := ⟨1, 1, [0, ⟨1, 1, -1, 0, 1, 0⟩]⟩

noncomputable def central : Bunch ℝ := ⟨1, 1, [0, 0]⟩

theorem energy_loss_in_the_cell :
    ∃ b' c', radiating.tracked stray = .ok b' ∧ radiating.tracked central = .ok c' ∧
      b'.deviations = [-Scalar.radiation, -Scalar.radiation] ∧ c'.deviations = b'.deviations ∧
      List.Forall₂ (fun v v' => v'.dp ≤ v.dp) stray.particles b'.particles := by
  have hpositive : 0 < stray.momentum := one_pos
  have hkeeps := keepsReference_radiating
  obtain ⟨hsucceeds, henergy⟩ := Station.radiation_only_takes_energy hkeeps hpositive
  obtain ⟨b', hb'⟩ := hsucceeds isSet_radiating
  obtain ⟨c', hc'⟩ := Station.exists_tracked isSet_radiating hkeeps.range central
  obtain ⟨hless, -, hdrained, htwo⟩ := henergy b' hb'
  refine ⟨b', c', hb', hc', ?_, htwo _ _ central c' hkeeps rfl rfl rfl rfl hc', hless⟩
  have hradiations : radiating.radiations = 1 := by
    rw [Station.radiations, processesOf_radiating]
    rfl
  have hdrain : Radiation.drain 1 1 1 0 = -Scalar.radiation := by
    simp [Radiation.drain, Radiation.loss, Scalar.square]
  rw [hdrained, arcs_radiating, hradiations, ← hdrain]
  rfl

end Cell

end BeamOptics
