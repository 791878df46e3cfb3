import BeamOptics.Proofs.Exact.Turn
import BeamOptics.Proofs.Tracking.Frame

/-!
# Slicing

In how many slices an element is passed does not matter to a bunch, as long as no radiation acts on it: the slices
compose to the map of the whole element. A process that only asks for more steps leaves tracked bunches as they are.
-/

namespace BeamOptics

/-- Maps by length that compose as lengths add up, and that a length of path passes through unchanged. -/
structure IsFlow (maps : ℝ → TransferMap ℝ) : Prop where
  zero : maps 0 = .identity
  add : ∀ a b, maps (a + b) = (maps b).comp (maps a)
  act_add_ofCt : ∀ ds v a, (maps ds).act (v + .ofCt a) = (maps ds).act v + .ofCt a

namespace IsFlow

variable {maps : ℝ → TransferMap ℝ}

theorem bendFlow (h kx ky share : ℝ) : IsFlow fun ds => TransferMap.bendFlow h kx ky (share * ds) where
  zero := by rw [mul_zero, TransferMap.bendFlow_zero_length]
  add a b := by rw [mul_add, TransferMap.bendFlow_add]
  act_add_ofCt ds := TransferMap.bendFlow_act_add_ofCt h kx ky (share * ds)

theorem comp_iterate (h : IsFlow maps) (ds : ℝ) (n : Nat) : (maps ds).comp^[n] .identity = maps (n * ds) := by
  induction n with
  | zero => rw [Nat.cast_zero, zero_mul, h.zero, Function.iterate_zero, id_eq]
  | succ n ih => rw [Function.iterate_succ_apply', ih, ← h.add, Nat.cast_succ, add_mul, one_mul]

/-- Slices of a flow, each with its share of a stretch of the path, are the flow and the stretch over all their
length. -/
theorem act_times (h : IsFlow maps) (stretch ds : ℝ) (n : Nat) (v : PhaseVector ℝ) :
    ((AffineTurn.andThen ⟨maps ds, 0⟩ (.lengthening (stretch * ds))).times n).act v =
      AffineTurn.act ⟨maps (n * ds), .ofCt (stretch * (n * ds))⟩ v := by
  induction n generalizing v with
  | zero =>
    rw [AffineTurn.times, AffineTurn.act_identity, Nat.cast_zero, zero_mul, mul_zero, h.zero, PhaseVector.ofCt_zero]
    exact (AffineTurn.act_identity v).symm
  | succ n ih =>
    have hlength : (n + 1 : Nat) * ds = ds + n * ds := by
      push_cast
      ring
    -- the stretch of the first slice passes through all the others
    rw [AffineTurn.times, AffineTurn.act_andThen, ih, AffineTurn.act_andThen, AffineTurn.act_lengthening, hlength]
    simp only [AffineTurn.act]
    rw [h.act_add_ofCt, PhaseVector.add_zero_real, h.add, TransferMap.comp_act_real, PhaseVector.add_assoc_real,
      PhaseVector.ofCt_add, mul_add]

end IsFlow

theorem Element.exists_flow {e : Element ℝ} (h : e.optics.kickless = true) :
    ∃ maps, IsFlow maps ∧ ∀ ds, e.transferMap ds = .ok (maps ds) := by
  obtain ⟨curvature, kx, ky, share, hmaps⟩ := Element.exists_bendFlow h
  exact ⟨_, IsFlow.bendFlow curvature kx ky share, hmaps⟩

theorem BeamProcess.sum_map_inOrder {α : Type} (f : BeamProcess α → ℝ) (processes : List (BeamProcess α)) :
    ((inOrder kind processes).map f).sum = (processes.map f).sum := by
  induction processes with
  | nil => rfl
  | cons p rest ih =>
    rw [List.map_cons, List.sum_cons, ← ih]
    cases hkind : p.kind <;> simp [inOrder, ProcessKind.all, hkind] <;> ring

namespace Pass

/-! ### Elements and lines -/

/-- Elements whose maps are all they do to a bunch, among processes that at most lengthen its path there. -/
def IsSmooth (processes : List (BeamProcess ℝ)) (elements : List (Element ℝ)) : Prop :=
  ∀ e ∈ elements, e.optics.kickless = true ∧ ∀ p ∈ processes, p.IsMild e

/-- In any count of slices but none, an element is its map as a whole and the stretch that the processes give it. -/
theorem carries_inSlices_of_flow {processes : List (BeamProcess ℝ)} {e : Element ℝ} {maps : ℝ → TransferMap ℝ}
    (hkickless : e.optics.kickless = true) (hflow : IsFlow maps) (hmaps : ∀ ds, e.transferMap ds = .ok (maps ds))
    (hmild : ∀ p ∈ processes, p.IsMild e) (signals : Signals ℝ) {n : Nat} (hn : n ≠ 0) :
    Carries (inSlices processes signals e n)
      ⟨maps e.length, .ofCt ((processes.map fun p => p.stretch e).sum * e.length)⟩ := by
  refine (carries_inSlices hmild signals hn (hmaps _)).congr fun v => ?_
  have hlength : n * (e.length / n) = e.length := mul_div_cancel₀ e.length (Nat.cast_ne_zero.mpr hn)
  rw [Element.kick_of_kickless hkickless, hflow.act_times, hlength, BeamProcess.sum_map_inOrder]

theorem inSlices_eq_through {processes : List (BeamProcess ℝ)} {e : Element ℝ} (hkickless : e.optics.kickless = true)
    (hmild : ∀ p ∈ processes, p.IsMild e) (signals : Signals ℝ) {n : Nat} (hn : n ≠ 0) :
    inSlices processes signals e n = through processes signals e := by
  obtain ⟨maps, hflow, hmaps⟩ := Element.exists_flow hkickless
  obtain ⟨k, hk, hcount⟩ := exists_stepCount hmild
  funext b
  rw [through_eq_inSlices hcount, carries_inSlices_of_flow hkickless hflow hmaps hmild signals hn,
    carries_inSlices_of_flow hkickless hflow hmaps hmild signals hk]

theorem through_append_of_onlySlices {processes : List (BeamProcess ℝ)} {e : Element ℝ} {p : BeamProcess ℝ}
    (hkickless : e.optics.kickless = true) (hmild : ∀ p ∈ processes, p.IsMild e) (hp : p.OnlySlices e)
    (signals : Signals ℝ) : through (processes ++ [p]) signals e = through processes signals e := by
  have hboth : ∀ q ∈ processes ++ [p], q.IsMild e := by
    intro q hq
    rcases List.mem_append.mp hq with hq | hq
    · exact hmild q hq
    · obtain rfl := List.mem_singleton.mp hq
      exact .inr hp
  -- the processes matter by the sum of their stretches alone, and the last one has none
  have hsum : ((processes ++ [p]).map fun p => p.stretch e).sum = (processes.map fun p => p.stretch e).sum := by
    rw [List.map_append, List.sum_append, List.map_singleton, List.sum_singleton,
      BeamProcess.stretch_of_onlySlices hp, add_zero]
  obtain ⟨maps, hflow, hmaps⟩ := Element.exists_flow hkickless
  funext b
  rw [← inSlices_eq_through hkickless hboth signals one_ne_zero,
    ← inSlices_eq_through hkickless hmild signals one_ne_zero,
    carries_inSlices_of_flow hkickless hflow hmaps hboth signals one_ne_zero,
    carries_inSlices_of_flow hkickless hflow hmaps hmild signals one_ne_zero, hsum]

variable {α : Type} [Scalar α]

/-- The bunch behind a line that it passes in a given count of slices for each element, whatever the processes ask
for. -/
def alongInSlices (processes : List (BeamProcess α)) (signals : Signals α) (counts : Element α → Nat) :
    Nat → List (Element α) → Bunch α → Except (Nat × Fault) (Bunch α)
  | _, [], b => .ok b
  | index, e :: rest, b => do
    let b ← (inSlices processes signals e (counts e) b).mapError fun fault => (index, fault)
    alongInSlices processes signals counts (index + 1) rest b

theorem alongInSlices_eq_along {processes : List (BeamProcess α)} {signals : Signals α} {counts : Element α → Nat}
    {elements : List (Element α)}
    (h : ∀ e ∈ elements, inSlices processes signals e (counts e) = through processes signals e) (index : Nat) :
    alongInSlices processes signals counts index elements = along processes signals index elements := by
  induction elements generalizing index with
  | nil => rfl
  | cons e rest ih =>
    funext b
    rw [alongInSlices, along, h e List.mem_cons_self, ih fun f hf => h f (List.mem_cons_of_mem e hf)]

end Pass

namespace Station

/-! ### Trackers -/

theorem processesOf_attach {s s' : Station ℝ} {number : Nat} {p : BeamProcess ℝ}
    (htracker : s'.tracker = { s.tracker with processes := s.tracker.processes ++ [number] })
    (hplant : s'.plant.unlogged = s.plant.unlogged) (hp : s.plant.processes.get? number = some p) :
    s'.plant.processesOf s'.tracker.processes = s.plant.processesOf s.tracker.processes ++ [p] := by
  rw [Plant.processesOf_of_fixtures (Plant.fixtures_of_unlogged hplant), htracker, Plant.processesOf,
    List.filterMap_append]
  simp [hp, Plant.processesOf]

theorem transport_attach {s s' : Station ℝ} {r : Range ℝ} {number : Nat} {p : BeamProcess ℝ}
    (htracker : s'.tracker = { s.tracker with processes := s.tracker.processes ++ [number] })
    (hplant : s'.plant.unlogged = s.plant.unlogged) (hp : s.plant.processes.get? number = some p)
    (hsmooth : Pass.IsSmooth (s.plant.processesOf s.tracker.processes) r.elements)
    (hslices : ∀ e ∈ r.elements, p.OnlySlices e) : s'.transport r = s.transport r := by
  have hstrengths := congrArg Prod.fst (Plant.fixtures_of_unlogged hplant)
  rw [transport, processesOf_attach htracker hplant hp, Range.transport_congr_strengths _ hstrengths, transport]
  refine Range.transport_congr fun e he => ?_
  obtain ⟨hkickless, hmild⟩ := hsmooth e he
  exact Pass.through_append_of_onlySlices hkickless hmild (hslices e he) _

theorem outcome_trackBunch_attach {s : Station ℝ} {r : Range ℝ} {number : Nat} {p : BeamProcess ℝ}
    (hrange : s.tracker.range = some r) (hp : s.plant.processes.get? number = some p)
    (hsmooth : Pass.IsSmooth (s.plant.processesOf s.tracker.processes) r.elements)
    (hslices : ∀ e ∈ r.elements, p.OnlySlices e) (b : Bunch ℝ) :
    ∃ b', ((trackBunch b).run s).1 = .ok (.ok (), b') ∧
      ((do attach number; trackBunch b : Action Fault (Station ℝ) _).run s).1 = .ok (.ok (), b') := by
  obtain ⟨t, ht⟩ := Range.carries_transport (fun e he => (hsmooth e he).2) s.plant.signals
  have htransport : s.transport r b = .ok (b.mapParticles t.act) := ht b
  obtain ⟨s₁, hattach, hplant, htracker⟩ := run_attach number s
  have hrange₁ : s₁.tracker.range = some r := by rw [htracker, ← hrange]
  have htransport₁ : s₁.transport r b = .ok (b.mapParticles t.act) := by
    rw [transport_attach htracker hplant hp hsmooth hslices, htransport]
  obtain ⟨s₂, hrun⟩ := run_trackBunch_of_transport hrange htransport
  obtain ⟨s₃, hrun₁⟩ := run_trackBunch_of_transport hrange₁ htransport₁
  refine ⟨_, congrArg Prod.fst hrun, ?_⟩
  rw [Action.run_bind_of_ok hattach, hrun₁]

end Station

/-- Maps of slices compose to the map of the whole element. So a bunch ends up the same in whatever counts of slices,
asked for by whatever processes that do nothing else, it passes the elements of a line; and a process that only asks
for steps can be attached to a tracker without a trace in its bunches. -/
theorem slices_compose_to_the_whole :
    (∀ e : Element ℝ, e.optics.kickless = true →
      ∃ maps : ℝ → TransferMap ℝ, (∀ ds, e.transferMap ds = .ok (maps ds)) ∧
        (∀ a b, maps (a + b) = (maps b).comp (maps a)) ∧
        ∀ n : Nat, 1 ≤ n → (maps (e.length / n)).comp^[n] .identity = maps e.length) ∧
    (∀ (processes : List (BeamProcess ℝ)) (elements : List (Element ℝ)), Pass.IsSmooth processes elements →
      ∀ signals index b, ∃ b', Pass.along processes signals index elements b = .ok b' ∧
        ∀ counts : Element ℝ → Nat, (∀ e ∈ elements, 1 ≤ counts e) →
          Pass.alongInSlices processes signals counts index elements b = .ok b') ∧
    ∀ (s : Station ℝ) (r : Range ℝ) (number : Nat) (p : BeamProcess ℝ), s.tracker.range = some r →
      s.plant.processes.get? number = some p →
      Pass.IsSmooth (s.plant.processesOf s.tracker.processes) r.elements → (∀ e ∈ r.elements, p.OnlySlices e) →
      ∀ b, ∃ b', ((Station.trackBunch b).run s).1 = .ok (.ok (), b') ∧
        ((do Station.attach number; Station.trackBunch b : Action Fault (Station ℝ) _).run s).1 =
          .ok (.ok (), b') := by
  refine ⟨?_, ?_, ?_⟩
  · intro e hkickless
    obtain ⟨maps, hflow, hmaps⟩ := Element.exists_flow hkickless
    refine ⟨maps, hmaps, hflow.add, fun n hn => ?_⟩
    rw [hflow.comp_iterate, mul_div_cancel₀ e.length (Nat.cast_ne_zero.mpr (Nat.one_le_iff_ne_zero.mp hn))]
  · intro processes elements hsmooth signals index b
    obtain ⟨t, ht⟩ := Pass.carries_along (fun e he => (hsmooth e he).2) signals
    refine ⟨b.mapParticles t.act, ht index b, fun counts hcounts => ?_⟩
    have hslices : ∀ e ∈ elements, Pass.inSlices processes signals e (counts e) = Pass.through processes signals e := by
      intro e he
      obtain ⟨hkickless, hmild⟩ := hsmooth e he
      exact Pass.inSlices_eq_through hkickless hmild signals (Nat.one_le_iff_ne_zero.mp (hcounts e he))
    rw [Pass.alongInSlices_eq_along hslices, ht index b]
  · intro s r number p hrange hp hsmooth hslices b
    exact Station.outcome_trackBunch_attach hrange hp hsmooth hslices b

namespace Cell

/-! ### A cell -/

noncomputable def drift : Element ℝ := ⟨0, "D", "Drift", 1, .drift⟩

noncomputable def quadrupole : Element ℝ := ⟨1, "Q", "Quadrupole", 1, .quadrupole (-1)⟩

noncomputable def dipole : Element ℝ := ⟨2, "B", "SectorBend", 1, .bend 1 1⟩

/-- Radiation, which outside bends only asks for eight steps. -/
noncomputable def slicer : BeamProcess ℝ := .radiation ⟨8, 0, false⟩

/-- A tracker of the straight part of the cell, with a process at work and the slicer at hand. -/
noncomputable def station : Station ℝ where
  tracker := { range := some ⟨0, [drift, quadrupole]⟩, processes := [0] }
  plant := { processes := (Table.empty.insert 0 (.ringDelta 1)).insert 1 slicer }

theorem requestedSteps_slicer (e : Element ℝ) : slicer.requestedSteps e = .ok 8 := by
  have hsize : Scalar.lt (0 : ℝ) 0 = false := by simp
  rw [slicer, BeamProcess.requestedSteps, Radiation.requestedSteps, hsize]
  rfl

theorem onlySlices_slicer {e : Element ℝ} (h : e.isBend = false) : slicer.OnlySlices e := by
  refine ⟨fun ds b => ?_, 8, by decide, requestedSteps_slicer e⟩
  rw [slicer, BeamProcess.act, Radiation.act, h]
  rfl

theorem isSmooth_ringDelta {elements : List (Element ℝ)} (h : ∀ e ∈ elements, e.optics.kickless = true) :
    Pass.IsSmooth [.ringDelta 1] elements :=
  fun e he => ⟨h e he, List.forall_mem_singleton.mpr (.inl (by decide))⟩

noncomputable def bunch : Bunch ℝ := ⟨1, 1, [⟨1, 0, 0, 1, 0, 1⟩]⟩

theorem slices_compose_in_the_cell :
    (∃ maps : ℝ → TransferMap ℝ, (∀ ds, dipole.transferMap ds = .ok (maps ds)) ∧
      (maps (dipole.length / (3 : Nat))).comp^[3] .identity = maps dipole.length) ∧
    (∃ b', Pass.along [.ringDelta 1] { } 0 [dipole, quadrupole] bunch = .ok b' ∧
      Pass.alongInSlices [.ringDelta 1] { } (fun _ => 8) 0 [dipole, quadrupole] bunch = .ok b') ∧
    Pass.stepCount [.ringDelta 1, slicer] quadrupole = .ok 8 ∧
    ∃ b', ((Station.trackBunch bunch).run station).1 = .ok (.ok (), b') ∧
      ((do Station.attach 1; Station.trackBunch bunch : Action Fault (Station ℝ) _).run station).1 =
        .ok (.ok (), b') := by
  obtain ⟨hmaps, halong, htrack⟩ := slices_compose_to_the_whole
  refine ⟨?_, ?_, ?_, ?_⟩
  · obtain ⟨maps, htransfer, -, hiterate⟩ := hmaps dipole rfl
    exact ⟨maps, htransfer, hiterate 3 (by decide)⟩
  · have hkickless : ∀ e ∈ [dipole, quadrupole], e.optics.kickless = true := by
      simp [dipole, quadrupole, Optics.kickless]
    obtain ⟨b', hwhole, hslices⟩ := halong _ _ (isSmooth_ringDelta hkickless) { } 0 bunch
    exact ⟨b', hwhole, hslices (fun _ => 8) (fun _ _ => by decide)⟩
  · rw [Pass.stepCount]
    simp only [List.mapM_cons, requestedSteps_slicer]
    rfl
  · have hkickless : ∀ e ∈ [drift, quadrupole], e.optics.kickless = true := by
      simp [drift, quadrupole, Optics.kickless]
    have hslices : ∀ e ∈ [drift, quadrupole], slicer.OnlySlices e :=
      List.forall_mem_cons.mpr ⟨onlySlices_slicer rfl, List.forall_mem_singleton.mpr (onlySlices_slicer rfl)⟩
    exact htrack station ⟨0, [drift, quadrupole]⟩ 1 slicer rfl (Table.get?_insert_self _ _ _)
      (isSmooth_ringDelta hkickless) hslices bunch

end Cell

end BeamOptics
