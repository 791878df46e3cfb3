import BeamOptics.Proofs.Tracking.Monitoring
import BeamOptics.Proofs.Tracking.Particlewise
import BeamOptics.Proofs.Tracking.ProcessOrder
import BeamOptics.Proofs.Tracking.Stepping

/-!
# The check on coordinates

Checks come last in every slice, whenever they were attached, and so they look at a bunch when nothing in the slice can
change it any more. What they see is a snapshot. As long as snapshots are finite a bunch goes on as without checks; the
first one that is not is where tracking ends, with everything as it is then.
-/

namespace BeamOptics

theorem Coordinate.mem_all (c : Coordinate) : c ∈ all := by
  cases c <;> decide

variable {α : Type} [Scalar α]

theorem PhaseVector.isFinite_iff {v : PhaseVector α} : v.isFinite = true ↔ ∀ c, Scalar.isFinite (v.get c) = true := by
  rw [isFinite, toList_eq, List.all_map, List.all_eq_true]
  exact ⟨fun h c => h c c.mem_all, fun h c _ => h c⟩

/-- Whether all coordinates of all particles are finite. -/
def Bunch.isFinite (b : Bunch α) : Bool := b.particles.all PhaseVector.isFinite

theorem Bunch.isFinite_iff {b : Bunch α} :
    b.isFinite = true ↔ ∀ v ∈ b.particles, ∀ c, Scalar.isFinite (v.get c) = true := by
  simp only [isFinite, List.all_eq_true, PhaseVector.isFinite_iff]

namespace BeamProcess

/-! ### Checks -/

/-- A list of offending particles has the indexes of those with a coordinate that is not finite. -/
theorem mem_nonFinite {particles : List (PhaseVector α)} {i : Nat} :
    i ∈ nonFinite particles ↔ ∃ v, particles[i]? = some v ∧ ∃ c, Scalar.isFinite (v.get c) = false := by
  have hoffends (v : PhaseVector α) : (!v.isFinite) = true ↔ ∃ c, Scalar.isFinite (v.get c) = false := by
    rw [Bool.not_eq_true', ← Bool.not_eq_true, PhaseVector.isFinite_iff]
    simp
  simp only [nonFinite, List.mem_map, List.mem_filter, hoffends]
  constructor
  · rintro ⟨⟨v, j⟩, ⟨hmem, hv⟩, rfl⟩
    exact ⟨v, List.mk_mem_zipIdx_iff_getElem?.mp hmem, hv⟩
  · rintro ⟨v, hi, hv⟩
    exact ⟨(v, i), ⟨List.mk_mem_zipIdx_iff_getElem?.mpr hi, hv⟩, rfl⟩

theorem pairwise_nonFinite (particles : List (PhaseVector α)) : (nonFinite particles).Pairwise (· < ·) := by
  have hindexes : (nonFinite particles).Sublist (List.range' 0 particles.length) := by
    rw [← List.zipIdx_map_snd 0 particles]
    exact List.filter_sublist.map Prod.snd
  exact List.Pairwise.sublist hindexes List.pairwise_lt_range'

theorem nonFinite_eq_nil {b : Bunch α} : nonFinite b.particles = [] ↔ b.isFinite = true := by
  rw [nonFinite_eq_nil_iff, Bunch.isFinite, List.all_eq_true]

/-- A check lets finite bunches go on as they are, and none that is not finite. -/
theorem act_finiteness_of_isFinite {b : Bunch α} (h : b.isFinite = true) (detailed : Bool) (e : Element α) (ds : α) :
    (finiteness detailed).act e ds b = .ok b := by
  rw [act, nonFinite_eq_nil.mpr h]

theorem act_finiteness_of_not_isFinite {b : Bunch α} (h : b.isFinite = false) (detailed : Bool) (e : Element α)
    (ds : α) : (finiteness detailed).act e ds b = .error (.nonFinite e.name (nonFinite b.particles) detailed) := by
  rw [act]
  split
  · next hnil =>
    rw [nonFinite_eq_nil.mp hnil] at h
    cases h
  · rfl

omit [Scalar α] in
theorem eq_finiteness_of_kind {p : BeamProcess α} (h : p.kind = .diagnostic) : ∃ detailed, p = finiteness detailed := by
  cases p with
  | finiteness detailed => exact ⟨detailed, rfl⟩
  | radiation r => cases h
  | ringDelta scale => cases h

omit [Scalar α] in
/-- The checks among some processes, in the order in which they were attached. -/
def checks (processes : List (BeamProcess α)) : List (BeamProcess α) := ofKind kind .diagnostic processes

omit [Scalar α] in
/-- All the others, in the order in which they act. -/
def acting (processes : List (BeamProcess α)) : List (BeamProcess α) :=
  ofKind kind .radiation processes ++ ofKind kind .ringDelta processes

omit [Scalar α] in
theorem inOrder_eq_acting_append (processes : List (BeamProcess α)) :
    inOrder kind processes = acting processes ++ checks processes := by
  rw [inOrder_eq, acting, checks, List.append_assoc]

omit [Scalar α] in
/-- One check that is attached somewhere makes some check the first of them. -/
theorem exists_first_check {processes : List (BeamProcess α)} {detailed : Bool} (h : .finiteness detailed ∈ processes) :
    ∃ detailed' rest, checks processes = .finiteness detailed' :: rest := by
  have hmem : .finiteness detailed ∈ checks processes := mem_ofKind.mpr ⟨h, rfl⟩
  obtain ⟨p, rest, hchecks⟩ := List.exists_cons_of_ne_nil (List.ne_nil_of_mem hmem)
  have hp : p ∈ checks processes := hchecks ▸ List.mem_cons_self
  obtain ⟨detailed', rfl⟩ := eq_finiteness_of_kind (mem_ofKind.mp hp).2
  exact ⟨detailed', rest, hchecks⟩

end BeamProcess

namespace Pass

/-! ### Slices -/

theorem applyAll_append (e : Element α) (ds : α) (front back : List (BeamProcess α)) :
    applyAll e ds (front ++ back) = applyAll e ds front >>= fun _ => applyAll e ds back := by
  induction front with
  | nil => rfl
  | cons p rest ih => simp only [List.cons_append, applyAll, ih, bind_assoc]

theorem run_applyAll_of_isFinite {e : Element α} {ds : α} {b : Bunch α} (h : b.isFinite = true)
    {processes : List (BeamProcess α)} (hkind : ∀ p ∈ processes, p.kind = .diagnostic) :
    (applyAll e ds processes).run b = (.ok (), b) := by
  induction processes with
  | nil => rfl
  | cons p rest ih =>
    obtain ⟨detailed, rfl⟩ := BeamProcess.eq_finiteness_of_kind (hkind p List.mem_cons_self)
    have hact := BeamProcess.act_finiteness_of_isFinite h detailed e ds
    rw [applyAll, Action.run_get_bind, Action.run_lift_bind_of_ok hact]
    exact ih fun q hq => hkind q (List.mem_cons_of_mem _ hq)

theorem run_applyAll_of_not_isFinite {e : Element α} {ds : α} {b : Bunch α} (h : b.isFinite = false) (detailed : Bool)
    (rest : List (BeamProcess α)) :
    (applyAll e ds (.finiteness detailed :: rest)).run b =
      (.error (.nonFinite e.name (BeamProcess.nonFinite b.particles) detailed), b) := by
  have hact := BeamProcess.act_finiteness_of_not_isFinite h detailed e ds
  rw [applyAll, Action.run_get_bind, Action.run_lift_bind_of_error hact]

/-- Where a bunch is after each of so many steps, as far as they go. -/
def trail (step : Action Fault (Bunch α) Unit) : Nat → Bunch α → List (Bunch α)
  | 0, _ => []
  | n + 1, b =>
    match step.run b with
    | (.ok _, b') => b' :: trail step n b'
    | (.error _, _) => []

omit [Scalar α] in
theorem trail_succ_of_ok {step : Action Fault (Bunch α) Unit} {b b' : Bunch α} (h : step.run b = (.ok (), b'))
    (n : Nat) : trail step (n + 1) b = b' :: trail step n b' := by
  rw [trail, h]

omit [Scalar α] in
theorem trail_succ_of_error {step : Action Fault (Bunch α) Unit} {b b' : Bunch α} {fault : Fault}
    (h : step.run b = (.error fault, b')) (n : Nat) : trail step (n + 1) b = [] := by
  rw [trail, h]

section

variable {processes : List (BeamProcess α)} {e : Element α} {m : TransferMap α} {kick : PhaseVector α} {ds : α}
  {b b' : Bunch α}

/-- The checks end a slice. -/
theorem slice_inOrder (processes : List (BeamProcess α)) (e : Element α) (m : TransferMap α) (kick : PhaseVector α)
    (ds : α) :
    slice (BeamProcess.inOrder BeamProcess.kind processes) e m kick ds =
      slice (BeamProcess.acting processes) e m kick ds >>= fun _ => applyAll e ds (BeamProcess.checks processes) := by
  unfold slice
  rw [BeamProcess.inOrder_eq_acting_append, applyAll_append, bind_assoc]

theorem run_slice_of_error {fault : Fault}
    (h : (slice (BeamProcess.acting processes) e m kick ds).run b = (.error fault, b')) :
    (slice (BeamProcess.inOrder BeamProcess.kind processes) e m kick ds).run b = (.error fault, b') := by
  rw [slice_inOrder, Action.run_bind_of_error h]

theorem run_slice_of_isFinite (h : (slice (BeamProcess.acting processes) e m kick ds).run b = (.ok (), b'))
    (hfinite : b'.isFinite = true) :
    (slice (BeamProcess.inOrder BeamProcess.kind processes) e m kick ds).run b = (.ok (), b') := by
  rw [slice_inOrder, Action.run_bind_of_ok h]
  exact run_applyAll_of_isFinite hfinite fun p hp => (BeamProcess.mem_ofKind.mp hp).2

variable {detailed : Bool} {rest : List (BeamProcess α)}

theorem run_slice_of_not_isFinite (hfirst : BeamProcess.checks processes = .finiteness detailed :: rest)
    (h : (slice (BeamProcess.acting processes) e m kick ds).run b = (.ok (), b')) (hfinite : b'.isFinite = false) :
    (slice (BeamProcess.inOrder BeamProcess.kind processes) e m kick ds).run b =
      (.error (.nonFinite e.name (BeamProcess.nonFinite b'.particles) detailed), b') := by
  rw [slice_inOrder, Action.run_bind_of_ok h, hfirst]
  exact run_applyAll_of_not_isFinite hfinite detailed rest

/-- Slices are passed as without checks, up to the first one with an end that is not finite. -/
theorem run_slices (hfirst : BeamProcess.checks processes = .finiteness detailed :: rest) (n : Nat) (b : Bunch α) :
    (slices (BeamProcess.inOrder BeamProcess.kind processes) e m kick ds n).run b =
      match (trail (slice (BeamProcess.acting processes) e m kick ds) n b).find? fun b => !b.isFinite with
      | some b' => (.error (.nonFinite e.name (BeamProcess.nonFinite b'.particles) detailed), b')
      | none => (slices (BeamProcess.acting processes) e m kick ds n).run b := by
  induction n generalizing b with
  | zero => rfl
  | succ n ih =>
    rw [slices, slices]
    rcases hslice : (slice (BeamProcess.acting processes) e m kick ds).run b with ⟨fault | _, b₁⟩
    · rw [trail_succ_of_error hslice, Action.run_bind_of_error (run_slice_of_error hslice),
        Action.run_bind_of_error hslice]
      rfl
    · rw [trail_succ_of_ok hslice]
      cases hfinite : b₁.isFinite with
      | true =>
        rw [List.find?_cons_of_neg (by simp [hfinite]), Action.run_bind_of_ok (run_slice_of_isFinite hslice hfinite),
          Action.run_bind_of_ok hslice, ih]
      | false =>
        rw [List.find?_cons_of_pos (by simp [hfinite]),
          Action.run_bind_of_error (run_slice_of_not_isFinite hfirst hslice hfinite)]

/-- A slice that is passed ends with a finite bunch, whatever it started with. -/
theorem isFinite_of_slice (hfirst : BeamProcess.checks processes = .finiteness detailed :: rest)
    (h : (slice (BeamProcess.inOrder BeamProcess.kind processes) e m kick ds).run b = (.ok (), b')) :
    b'.isFinite = true := by
  rcases hslice : (slice (BeamProcess.acting processes) e m kick ds).run b with ⟨fault | _, b₁⟩
  · rw [run_slice_of_error hslice] at h
    cases h
  · cases hfinite : b₁.isFinite with
    | false =>
      rw [run_slice_of_not_isFinite hfirst hslice hfinite] at h
      cases h
    | true =>
      rw [run_slice_of_isFinite hslice hfinite] at h
      cases h
      exact hfinite

theorem isFinite_of_slices (hfirst : BeamProcess.checks processes = .finiteness detailed :: rest) {n : Nat}
    (hn : n ≠ 0)
    (h : (slices (BeamProcess.inOrder BeamProcess.kind processes) e m kick ds n).run b = (.ok (), b')) :
    b'.isFinite = true := by
  induction n generalizing b with
  | zero => exact absurd rfl hn
  | succ n ih =>
    obtain ⟨_, b₁, hslice, hrest⟩ := Action.exists_of_run_bind h
    cases n with
    | zero =>
      cases hrest
      exact isFinite_of_slice hfirst hslice
    | succ n => exact ih n.succ_ne_zero hrest

end

/-! ### Elements and lines -/

/-- Where a bunch is at the end of each slice. -/
def Slicing.ends (cut : Slicing α) (processes : List (BeamProcess α)) (signals : Signals α) (e : Element α) :
    Bunch α → List (Bunch α) :=
  trail (slice processes e cut.map (e.kick (signals.strength e) cut.ds) cut.ds) cut.count

theorem Slicing.run_pass {processes others : List (BeamProcess α)} {detailed : Bool}
    (hfirst : BeamProcess.checks processes = .finiteness detailed :: others) (cut : Slicing α) (signals : Signals α)
    (e : Element α) (b : Bunch α) :
    (cut.pass (BeamProcess.inOrder BeamProcess.kind processes) signals e).run b =
      match (cut.ends (BeamProcess.acting processes) signals e b).find? fun b => !b.isFinite with
      | some b' => (.error (.nonFinite e.name (BeamProcess.nonFinite b'.particles) detailed), b')
      | none => (cut.pass (BeamProcess.acting processes) signals e).run b :=
  run_slices hfirst cut.count b

/-- What a bunch goes through on its way through elements if no check looks at it: where it is at the end of each
slice, with the index of the element. -/
def snapshots (processes : List (BeamProcess α)) (signals : Signals α) :
    Nat → List (Element α) → Bunch α → List (Nat × Bunch α)
  | _, [], _ => []
  | index, e :: rest, b =>
    match slicing processes e with
    | .error _ => []
    | .ok cut =>
      (cut.ends (BeamProcess.acting processes) signals e b).map (index, ·) ++
        match (cut.pass (BeamProcess.acting processes) signals e).run b with
        | (.ok _, b') => snapshots processes signals (index + 1) rest b'
        | (.error _, _) => []

theorem snapshots_congr_strengths (processes : List (BeamProcess α)) {signals signals' : Signals α}
    (h : signals'.strengths = signals.strengths) (index : Nat) (elements : List (Element α)) :
    snapshots processes signals' index elements = snapshots processes signals index elements := by
  have hstrength (e : Element α) : signals'.strength e = signals.strength e := by
    rw [Signals.strength, h, Signals.strength]
  induction elements generalizing index with
  | nil => rfl
  | cons e rest ih =>
    funext b
    simp only [snapshots, Slicing.ends, Slicing.pass, hstrength, ih]

section

variable {processes others : List (BeamProcess α)} {e : Element α} {b b' : Bunch α} {signals : Signals α} {detailed : Bool}

theorem isFinite_of_throughElement (hfirst : BeamProcess.checks processes = .finiteness detailed :: others)
    {pass pass' : Pass α} (h : (throughElement processes e).run pass = (.ok (), pass')) :
    pass'.bunch.isFinite = true := by
  obtain ⟨cut, hcut, hslices, -⟩ := exists_of_run_throughElement h
  obtain ⟨-, hds, -⟩ := of_slicing hcut
  exact isFinite_of_slices hfirst (Scalar.ne_zero_of_overCount hds) hslices

/-- A bunch behind a line has been looked at behind its last element. -/
theorem isFinite_of_throughLine (hfirst : BeamProcess.checks processes = .finiteness detailed :: others) {index : Nat}
    {elements : List (Element α)} (hne : elements ≠ []) {pass pass' : Pass α}
    (h : (throughLine processes index elements).run pass = (.ok (), pass')) : pass'.bunch.isFinite = true := by
  induction elements generalizing index pass with
  | nil => exact absurd rfl hne
  | cons e rest ih =>
    obtain ⟨pass₁, he, hrest⟩ := exists_of_throughLine_cons h
    cases rest with
    | nil =>
      cases hrest
      exact isFinite_of_throughElement hfirst he
    | cons f rest => exact ih (List.cons_ne_nil f rest) hrest

/-- The first snapshot that is not finite is where passing a line ends, in the element of the snapshot. -/
theorem exists_of_find?_snapshots (hfirst : BeamProcess.checks processes = .finiteness detailed :: others)
    {index i : Nat} {elements : List (Element α)}
    (h : (snapshots processes signals index elements b).find? (fun snapshot => !snapshot.2.isFinite) = some (i, b')) :
    ∃ front e back pass, elements = front ++ e :: back ∧ i = index + front.length ∧
      (throughLine processes index front).run ⟨b, signals⟩ = (.ok (), pass) ∧
      (throughElement processes e).run pass =
        (.error (.nonFinite e.name (BeamProcess.nonFinite b'.particles) detailed), ⟨b', pass.signals⟩) := by
  induction elements generalizing index b signals with
  | nil => cases h
  | cons e rest ih =>
    rw [snapshots] at h
    cases hcut : slicing processes e with
    | error fault =>
      rw [hcut] at h
      cases h
    | ok cut =>
      have he := run_throughElement hcut b signals
      rw [cut.run_pass hfirst signals e b] at he
      simp only [hcut, List.find?_append, List.find?_map, Function.comp_def] at h
      cases hends : (cut.ends (BeamProcess.acting processes) signals e b).find? fun b => !b.isFinite with
      | some b₁ =>
        -- the snapshot is one of the first element
        rw [hends] at h he
        obtain ⟨rfl, rfl⟩ := Prod.ext_iff.mp (Option.some.inj h)
        exact ⟨[], e, rest, ⟨b, signals⟩, rfl, rfl, rfl, he⟩
      | none =>
        rw [hends] at h he
        rcases hpass : (cut.pass (BeamProcess.acting processes) signals e).run b with ⟨fault | _, b₁⟩ <;>
          rw [hpass] at h
        · cases h
        · have hpassed : (throughElement processes e).run ⟨b, signals⟩ = (.ok (), ⟨b₁, signals.observe e b₁⟩) := by
            rw [he, hpass]
          -- what the element has observed has no part in the snapshots behind it
          rw [← snapshots_congr_strengths processes (signals.strengths_observe e b₁)] at h
          obtain ⟨front, f, back, pass, rfl, rfl, hfront, hf⟩ := ih h
          refine ⟨e :: front, f, back, pass, rfl, ?_, ?_, hf⟩
          · rw [List.length_cons]
            omega
          · rw [run_throughLine_cons hpassed, hfront]

end

end Pass

/-- Behind a range that has elements, and with a check attached, all coordinates are finite. -/
theorem Range.isFinite_of_transport {processes : List (BeamProcess α)} {signals : Signals α} {r : Range α}
    (hr : r.elements ≠ []) {detailed : Bool} (hcheck : .finiteness detailed ∈ processes) {b b' : Bunch α}
    (h : r.transport processes signals b = .ok b') : b'.isFinite = true := by
  obtain ⟨detailed', others, hfirst⟩ := BeamProcess.exists_first_check hcheck
  have halong := mapError_eq_ok_iff.mp h
  rw [← Pass.reach_throughLine] at halong
  obtain ⟨pass, hreach, rfl⟩ := map_eq_ok_iff.mp halong
  obtain ⟨_, hrun⟩ := Action.exists_of_reach hreach
  exact Pass.isFinite_of_throughLine hfirst hr hrun

namespace Ride

/-! ### Tracking -/

/-- The first snapshot, on a bunch's way through a range, with a coordinate that is not finite, and the index of its
element. -/
def firstNonFinite (t : Tracker α) (r : Range α) (plant : Plant α) (b : Bunch α) : Option (Nat × Bunch α) :=
  (Pass.snapshots (plant.processesOf t.processes) plant.signals r.first r.elements b).find?
    fun snapshot => !snapshot.2.isFinite

/-- Tracking a bunch is given up inside an element, where the bunch stays as it is. The fault names the element and
lists the particles with a coordinate that is not finite, in ascending order. The elements before it are passed as
they always are, those behind it have no part in anything, and but for the log and the records of observers nothing is
written except by monitors before it. -/
def GivesUp (t : Tracker α) (r : Range α) (plant : Plant α) (b : Bunch α) (index : Nat) (caught : Bunch α) : Prop :=
  ∃ front e back passed particles detailed plant',
    r.elements = front ++ e :: back ∧ index = r.first + front.length ∧
    (Pass.throughLine (plant.processesOf t.processes) r.first front).run ⟨b, plant.signals⟩ = (.ok (), passed) ∧
    (track t).run ⟨b, plant⟩ = (.error (.nonFinite e.name particles detailed), ⟨caught, plant'⟩) ∧
    particles.Pairwise (· < ·) ∧
    (∀ i, i ∈ particles ↔ ∃ v, caught.particles[i]? = some v ∧ ∃ c, Scalar.isFinite (v.get c) = false) ∧
    (∀ others, (Pass.throughLine (plant.processesOf t.processes) r.first (front ++ e :: others)).run
      ⟨b, plant.signals⟩ = (.error (index, .nonFinite e.name particles detailed), ⟨caught, passed.signals⟩)) ∧
    plant'.apart [] = { plant with signals := passed.signals }.apart [] ∧
    ∀ f : Element α, f.tag ∉ Element.monitorTags front → plant'.signals.reading f = plant.signals.reading f

/-- Where a check is attached, at whichever place among the processes, tracking through a line returns bunches with
finite coordinates only; and the first slice behind which a coordinate is not finite is where it gives up. -/
theorem checks_guard_tracking {t : Tracker α} {r : Range α} (hrange : t.range = some r) (hr : r.elements ≠ [])
    {plant : Plant α} {detailed : Bool} (hcheck : .finiteness detailed ∈ plant.processesOf t.processes) (b : Bunch α) :
    (∀ ride, (track t).run ⟨b, plant⟩ = (.ok (), ride) →
      ∀ v ∈ ride.bunch.particles, ∀ c, Scalar.isFinite (v.get c) = true) ∧
    ∀ index caught, firstNonFinite t r plant b = some (index, caught) → GivesUp t r plant b index caught := by
  obtain ⟨detailed', others, hfirst⟩ := BeamProcess.exists_first_check hcheck
  constructor
  · intro ride htrack
    rcases hline : (Pass.throughLine (plant.processesOf t.processes) r.first r.elements).run ⟨b, plant.signals⟩ with
      ⟨failure | _, pass⟩
    · obtain ⟨plant', hrun, -⟩ := run_track hrange hline
      rw [hrun] at htrack
      cases htrack
    · obtain ⟨plant', hrun, -⟩ := run_track hrange hline
      rw [hrun] at htrack
      cases htrack
      exact Bunch.isFinite_iff.mp (Pass.isFinite_of_throughLine hfirst hr hline)
  · intro index caught hcaught
    obtain ⟨front, e, back, passed, helements, hindex, hfront, he⟩ := Pass.exists_of_find?_snapshots hfirst hcaught
    have hline := Pass.run_throughLine_of_error hfront he
    obtain ⟨plant', htrack, happart⟩ := run_track hrange (helements ▸ hline back)
    refine ⟨front, e, back, passed, _, detailed', plant', helements, hindex, hfront, htrack,
      BeamProcess.pairwise_nonFinite _, fun i => BeamProcess.mem_nonFinite, ?_, happart, ?_⟩
    · rw [hindex]
      exact hline
    · intro f hf
      have hsignals : plant'.signals = passed.signals := Plant.signals_of_apart_nil happart
      have htags : ∀ g ∈ front, g.isMonitor = true → g.tag ∈ Element.monitorTags front :=
        fun g => Element.tag_mem_monitorTags
      have hkept := Pass.keeps_apart_throughLine (plant.processesOf t.processes) r.first htags
      rw [hsignals]
      exact Signals.reading_congr (hkept.of_run hfront) hf

end Ride

namespace SmallMachine

def upstream : Element Int := ⟨1, "M1", "Monitor", 0, .monitor 0 0⟩

def downstream : Element Int := ⟨3, "M2", "Monitor", 0, .monitor 0 0⟩

def guardedRange : Range Int :=
  ⟨3, [⟨0, "D", "Drift", 2, .drift⟩, upstream, ⟨2, "B", "SectorBend", 4, .bend 0 0⟩, downstream]⟩

/-- A straight bend between monitors, in two slices. The check is attached first. -/
def guarded : Station Int where
  tracker := { range := some guardedRange, processes := [0, 2, 1] }
  plant := { processes := ⟨[(0, .finiteness true), (1, .radiation ⟨2, 0, false⟩), (2, .ringDelta 1)]⟩ }

/-- A particle that goes straight ahead, between two that go apart. -/
def fan : Bunch Int := ⟨1, 1, [⟨0, 2, 0, 0, 0, 0⟩, ⟨4, 0, 0, 0, 0, 0⟩, ⟨0, -2, 0, 0, 0, 0⟩]⟩

/-- Two particles get too far out in the second slice of the bend; without them tracking goes through. -/
theorem checks_guard_tracking_guarded :
    Ride.GivesUp guarded.tracker guardedRange guarded.plant fan 5
        ⟨1, 1, [⟨12, 2, 0, 0, -4, 0⟩, ⟨4, 0, 0, 0, -4, 0⟩, ⟨-12, -2, 0, 0, -4, 0⟩]⟩ ∧
      ((Ride.track guarded.tracker).run ⟨fan, guarded.plant⟩).1 = .error (.nonFinite "B" [0, 2] true) ∧
      ∃ ride, (Ride.track guarded.tracker).run ⟨⟨1, 1, [⟨4, 0, 0, 0, 0, 0⟩]⟩, guarded.plant⟩ = (.ok (), ride) ∧
        ∀ v ∈ ride.bunch.particles, ∀ c, Scalar.isFinite (v.get c) = true := by
  have hrange : guarded.tracker.range = some guardedRange := rfl
  have hr : guardedRange.elements ≠ [] := List.cons_ne_nil _ _
  have hcheck : .finiteness true ∈ guarded.plant.processesOf guarded.tracker.processes := List.mem_cons_self
  obtain ⟨-, hstops⟩ := Ride.checks_guard_tracking hrange hr hcheck fan
  obtain ⟨hreturns, -⟩ := Ride.checks_guard_tracking hrange hr hcheck ⟨1, 1, [⟨4, 0, 0, 0, 0, 0⟩]⟩
  exact ⟨hstops _ _ rfl, rfl, _, rfl, hreturns _ rfl⟩

end SmallMachine

end BeamOptics
