import Mathlib
import BeamOptics.Proofs.ClosedOrbit.Frame
import BeamOptics.Proofs.Exact.Flow
import BeamOptics.Proofs.Scalar.Sums
import BeamOptics.Proofs.Session.Orbit
import BeamOptics.Proofs.Tracking.Faults
import BeamOptics.Proofs.Tracking.ProcessOrder
import BeamOptics.Proofs.Tracking.Stepping

/-!
# The value of an excursion

An excursion is the root of a mean of squares: for each element the squared mean of the vectors at its two ends,
weighted by its length. The vectors are those of an orbit that passes every element whole, in one step and without
processes. So the value depends on the line, on the strengths along it and on the start alone. The segment is refused
where the line is empty or has no length, and nowhere else.
-/

namespace BeamOptics

namespace Rms

variable {α : Type} [Scalar α] {signals : Signals α} {elements : List (Element α)}

/-! ### Orbits -/

/-- The vector behind an element that is passed whole, in one step of all its length. -/
def beyond (signals : Signals α) (e : Element α) (v : PhaseVector α) : Except Fault (PhaseVector α) := do
  let ds ← ofMath (Scalar.overCount e.length 1)
  let m ← ofMath (e.transferMap ds)
  pure (m.act v + e.kick (signals.strength e) ds)

/-- The vector behind the first elements of a line, each of them passed whole. -/
def behind (signals : Signals α) (elements : List (Element α)) (start : PhaseVector α) (i : Nat) :
    Except Fault (PhaseVector α) :=
  (elements.take i).foldlM (fun v e => beyond signals e v) start

/-- Vectors at the places of a line, one before each element and one behind the last. -/
def IsOrbit (signals : Signals α) (elements : List (Element α)) (start : PhaseVector α) (z : Nat → PhaseVector α) :
    Prop :=
  ∀ i ≤ elements.length, behind signals elements start i = .ok (z i)

theorem behind_cons_succ (signals : Signals α) (e : Element α) (rest : List (Element α)) (start : PhaseVector α)
    (i : Nat) :
    behind signals (e :: rest) start (i + 1) = beyond signals e start >>= fun v => behind signals rest v i := by
  rw [behind, List.take_succ_cons, List.foldlM_cons]
  rfl

theorem isOrbit_cons_iff {e : Element α} {rest : List (Element α)} {start : PhaseVector α} {z : Nat → PhaseVector α} :
    IsOrbit signals (e :: rest) start z ↔
      z 0 = start ∧ beyond signals e start = .ok (z 1) ∧ IsOrbit signals rest (z 1) fun i => z (i + 1) := by
  constructor
  · intro h
    have hfirst : beyond signals e start = .ok (z 1) := by
      have hone := h 1 (Nat.le_add_left 1 _)
      rw [behind_cons_succ] at hone
      obtain ⟨v, hv, hz⟩ := bind_eq_ok_iff.mp hone
      rwa [Except.ok.inj hz] at hv
    refine ⟨(Except.ok.inj (h 0 (Nat.zero_le _))).symm, hfirst, ?_⟩
    intro i hi
    have hnext := h (i + 1) (Nat.succ_le_succ hi)
    rw [behind_cons_succ, hfirst] at hnext
    exact hnext
  · rintro ⟨rfl, hfirst, hrest⟩ i hi
    cases i with
    | zero => rfl
    | succ i =>
      rw [behind_cons_succ, hfirst]
      exact hrest i (Nat.le_of_succ_le_succ hi)

theorem segmentFree_beyond (signals : Signals α) (e : Element α) (v : PhaseVector α) :
    SegmentFree (beyond signals e v) := by
  refine (SegmentFree.ofMath _).bind fun ds _ => ?_
  exact (SegmentFree.ofMath _).bind fun m _ => .ok _

/-- Without processes a single particle goes through an element whole. -/
theorem through_nil (signals : Signals α) (e : Element α) {b : Bunch α} {v : PhaseVector α}
    (hb : b.particles = [v]) :
    Pass.through [] signals e b = (fun w => { b with particles := [w] }) <$> beyond signals e v := by
  rw [Pass.through_eq_inSlices (Pass.stepCount_nil e), Pass.inSlices, beyond, map_bind]
  refine bind_congr fun ds => ?_
  rw [map_bind]
  refine bind_congr fun m => ?_
  change Except.ok (b.mapParticles _) = Except.ok _
  rw [Bunch.mapParticles, hb]
  rfl

section

variable {pass : Pass α} {e : Element α} {v : PhaseVector α}

theorem run_throughElement_of_beyond (hv : pass.bunch.particles = [v]) {w : PhaseVector α}
    (hw : beyond pass.signals e v = .ok w) :
    ∃ pass', (Pass.throughElement [] e).run pass = (.ok (), pass') ∧ pass'.bunch.particles = [w] ∧
      pass'.signals.strengths = pass.signals.strengths := by
  have hthrough := through_nil pass.signals e hv
  rw [hw, Pass.through] at hthrough
  rcases hrun : (Pass.throughElement [] e).run pass with ⟨fault | _, pass'⟩
  · rw [Action.reach_of_error hrun] at hthrough
    cases hthrough
  · rw [Action.reach_of_ok hrun] at hthrough
    have hbunch : pass'.bunch = { pass.bunch with particles := [w] } := Except.ok.inj hthrough
    have hstrengths := (Pass.keeps_strengths_throughElement [] e).of_run hrun
    exact ⟨pass', rfl, congrArg Bunch.particles hbunch, hstrengths⟩

theorem run_throughElement_of_beyond_error (hv : pass.bunch.particles = [v]) {fault : Fault}
    (hfault : beyond pass.signals e v = .error fault) :
    ∃ pass', (Pass.throughElement [] e).run pass = (.error fault, pass') := by
  have hthrough := through_nil pass.signals e hv
  rw [hfault, Pass.through] at hthrough
  rcases hrun : (Pass.throughElement [] e).run pass with ⟨fault' | _, pass'⟩
  · rw [Action.reach_of_error hrun] at hthrough
    obtain rfl := Except.error.inj hthrough
    exact ⟨pass', rfl⟩
  · rw [Action.reach_of_ok hrun] at hthrough
    cases hthrough

end

omit [Scalar α] in
theorem firstParticle_of_particles {b : Bunch α} {v : PhaseVector α} (hv : b.particles = [v]) :
    b.firstParticle = .ok v := by
  rw [Bunch.firstParticle, hv]

/-! ### Sums along a line -/

/-- What the elements of a line add to a sum, from a vector on. -/
def gather (signals : Signals α) : List (Element α) → PhaseVector α → PhaseVector α → Except Fault (PhaseVector α)
  | [], _, total => .ok total
  | e :: rest, before, total => do
    let after ← beyond signals e before
    gather signals rest after (total + contribution e.length before after)

theorem beyond_congr {signals' : Signals α} (h : signals'.strengths = signals.strengths) :
    beyond signals' = beyond signals := by
  funext e v
  unfold beyond Signals.strength
  rw [h]

theorem gather_congr {signals' : Signals α} (h : signals'.strengths = signals.strengths)
    (elements : List (Element α)) (before total : PhaseVector α) :
    gather signals' elements before total = gather signals elements before total := by
  induction elements generalizing before total with
  | nil => rfl
  | cons e rest ih =>
    rw [gather, gather, beyond_congr h]
    exact bind_congr fun after => ih after _

/-- The sum that is accumulated in a tracker without processes, whatever the monitors read meanwhile. -/
theorem fst_run_accumulate {t : Tracker α} (ht : t.processes = []) (elements : List (Element α)) {ride : Ride α}
    {before : PhaseVector α} (hbefore : ride.bunch.particles = [before]) (total : PhaseVector α) :
    ((accumulate t elements before total).run ride).1 = gather ride.plant.signals elements before total := by
  induction elements generalizing ride before total with
  | nil => rfl
  | cons e rest ih =>
    have hnone : ride.plant.processesOf t.processes = [] := by rw [ht]; rfl
    have hpass : (⟨ride.bunch, ride.plant.signals⟩ : Pass α).bunch.particles = [before] := hbefore
    rw [accumulate, gather]
    cases hbeyond : beyond ride.plant.signals e before with
    | error fault =>
      obtain ⟨pass, hrun⟩ := run_throughElement_of_beyond_error hpass hbeyond
      rw [← hnone] at hrun
      rw [Action.run_bind_of_error (Ride.run_throughElement_error hrun)]
      rfl
    | ok after =>
      obtain ⟨pass, hrun, hafter, hstrengths⟩ := run_throughElement_of_beyond hpass hbeyond
      have hfirst := firstParticle_of_particles hafter
      rw [← hnone] at hrun
      rw [Action.run_bind_of_ok (Ride.run_throughElement hrun), Action.run_bind_of_ok (Action.run_ask _ _),
        Action.run_lift_bind_of_ok hfirst, ih hafter, gather_congr hstrengths]
      rfl

/-! ### Along a stepper -/

/-- The bunch that is on its way. -/
def steppedBunch : Action Fault (Station α) (Bunch α) := do
  let s ← get
  let number ← Action.lift s.tracker.steppedBunch
  match s.plant.bunches.get? number with
  | some load => Action.lift load.bunch
  | none => throw .stepperIdle

/-- Accumulates along a stepper: the length of the current element, a step through it, and the vector behind it, until
a step tells that no other element follows. -/
def readOff : Nat → PhaseVector α → PhaseVector α → Action Fault (Station α) (PhaseVector α)
  | 0, _, total => pure total
  | budget + 1, before, total => do
    let (e, more) ← Station.visit
    let b ← steppedBunch
    let after ← Action.lift b.firstParticle
    let total := total + contribution e.length before after
    if more then readOff budget after total else pure total

omit [Scalar α] in
theorem run_steppedBunch (s : Station α) (number index : Nat) (pass : Pass α) :
    steppedBunch.run (s.aboard number index pass) = (.ok pass.bunch, s.aboard number index pass) := by
  have hb := Table.get?_insert_self s.plant.bunches number (.table pass.bunch)
  have hnumber : (s.aboard number index pass).tracker.steppedBunch = .ok number := rfl
  rw [steppedBunch, Action.run_get_bind, Action.run_lift_bind_of_ok hnumber]
  simp only [Station.aboard, hb]
  rfl

section

variable {s : Station α} {r : Range α}

theorem fst_run_readOff_aboard (hrange : s.tracker.range = some r) (hprocesses : s.tracker.processes = [])
    (number : Nat) {index budget : Nat} {pass : Pass α} {back : List (Element α)} (hne : back ≠ [])
    (hback : ∀ i e, back[i]? = some e → r.at? (index + i) = some e) (hlast : index + back.length = r.last + 1)
    (hbudget : back.length ≤ budget) {before : PhaseVector α} (hbefore : pass.bunch.particles = [before])
    (total : PhaseVector α) :
    ((readOff budget before total).run (s.aboard number index pass)).1 = gather pass.signals back before total := by
  induction back generalizing index budget pass before total with
  | nil => exact absurd rfl hne
  | cons e rest ih =>
    obtain ⟨budget, rfl⟩ : ∃ n, budget = n + 1 := Nat.exists_eq_succ_of_ne_zero (by rintro rfl; cases hbudget)
    have hnone : s.plant.processesOf s.tracker.processes = [] := by rw [hprocesses]; rfl
    have he : r.at? index = some e := hback 0 e rfl
    rw [readOff, gather]
    cases hbeyond : beyond pass.signals e before with
    | error fault =>
      obtain ⟨pass', hrun⟩ := run_throughElement_of_beyond_error hbefore hbeyond
      rw [← hnone] at hrun
      obtain ⟨s', hvisit⟩ := Station.run_visit_aboard_error number hrange he hrun
      rw [Action.run_bind_of_error hvisit]
      rfl
    | ok after =>
      obtain ⟨pass', hrun, hafter, hstrengths⟩ := run_throughElement_of_beyond hbefore hbeyond
      have hfirst := firstParticle_of_particles hafter
      rw [← hnone] at hrun
      rw [Action.run_bind_of_ok (Station.run_visit_aboard number hrange he hrun),
        Action.run_bind_of_ok (run_steppedBunch s number (index + 1) pass'), Action.run_lift_bind_of_ok hfirst]
      rw [List.length_cons] at hlast hbudget
      have hlater : ∀ i f, rest[i]? = some f → r.at? (index + 1 + i) = some f := fun i f => Range.at?_tail hback
      -- no other element follows just after the step through the last one
      by_cases hmore : index < r.last
      · have hrest : rest ≠ [] := List.ne_nil_of_length_pos (by omega)
        have hnext := ih hrest hlater (show index + 1 + rest.length = r.last + 1 by omega)
          (Nat.le_of_succ_le_succ hbudget) hafter (total + contribution e.length before after)
        rw [if_pos (decide_eq_true hmore), hnext, gather_congr hstrengths]
        rfl
      · obtain rfl : rest = [] := List.length_eq_zero_iff.mp (by omega)
        rw [if_neg (by simpa using hmore)]
        rfl

/-- The stepper comes by every element of its range once, the last one included. -/
theorem fst_run_readOff (hrange : s.tracker.range = some r) (hr : r.elements ≠ [])
    (hprocesses : s.tracker.processes = []) {number : Nat} {b : Bunch α}
    (hb : s.plant.bunches.get? number = some (.table b)) {start : PhaseVector α} (hstart : b.particles = [start])
    (total : PhaseVector α) :
    ((do
      Station.initStepper number
      readOff r.elements.length start total : Action Fault (Station α) (PhaseVector α)).run s).1 =
      gather s.plant.signals r.elements start total := by
  have hpos := List.length_pos_iff.mpr hr
  have hback : ∀ i e, r.elements[i]? = some e → r.at? (r.first + i) = some e := by
    intro i e he
    rw [Range.at?_add, he]
  have hlast : r.first + r.elements.length = r.last + 1 := by
    rw [Range.last]
    omega
  rw [Action.run_bind_of_ok (Station.run_initStepper hrange hb)]
  exact fst_run_readOff_aboard hrange hprocesses number hr hback hlast le_rfl hstart total

end

/-! ### Means of squares -/

/-- The squared mean of the values at both ends of an element. -/
def squaredMean (z : Nat → PhaseVector α) (c : Coordinate) (i : Nat) : α :=
  Scalar.square (((z (i + 1)).get c + (z i).get c) / Scalar.two)

/-- The squared means along a line, weighted by the lengths of the elements. -/
def weighted (elements : List (Element α)) (square : Nat → α) : List α :=
  elements.mapIdx fun i e => e.length * square i

def meanSquare (elements : List (Element α)) (z : Nat → PhaseVector α) (c : Coordinate) : α :=
  Scalar.sum (weighted elements (squaredMean z c)) / Element.totalLength elements

def rootMeanSquare (elements : List (Element α)) (z : Nat → PhaseVector α) : PhaseVector α :=
  PhaseVector.ofFn fun c => Scalar.sqrt (meanSquare elements z c)

theorem weighted_cons (e : Element α) (rest : List (Element α)) (square : Nat → α) :
    weighted (e :: rest) square = e.length * square 0 :: weighted rest fun i => square (i + 1) :=
  List.mapIdx_cons

theorem gather_of_isOrbit {start : PhaseVector α} {z : Nat → PhaseVector α} (h : IsOrbit signals elements start z)
    (total : PhaseVector α) :
    gather signals elements start total =
      .ok (PhaseVector.ofFn fun c => (weighted elements (squaredMean z c)).foldl (· + ·) (total.get c)) := by
  induction elements generalizing start total z with
  | nil => exact congrArg Except.ok (PhaseVector.ext_get fun c => (PhaseVector.get_ofFn _ c).symm)
  | cons e rest ih =>
    obtain ⟨rfl, hfirst, hrest⟩ := isOrbit_cons_iff.mp h
    have hsum (c : Coordinate) : (total + contribution e.length (z 0) (z 1)).get c =
        total.get c + e.length * squaredMean z c 0 := by
      rw [PhaseVector.get_add, contribution, PhaseVector.get_ofFn]
      rfl
    rw [gather, hfirst]
    refine (ih hrest _).trans ?_
    simp only [hsum, weighted_cons, List.foldl_cons]
    rfl

/-- Where an orbit is lost, so is the sum along it. -/
theorem gather_of_lost {start : PhaseVector α} {fault : Fault}
    (h : behind signals elements start elements.length = .error fault) (total : PhaseVector α) :
    gather signals elements start total = .error fault := by
  induction elements generalizing start total with
  | nil => cases h
  | cons e rest ih =>
    rw [List.length_cons, behind_cons_succ] at h
    rw [gather]
    cases hfirst : beyond signals e start with
    | error fault' =>
      rw [hfirst] at h
      exact h
    | ok v =>
      rw [hfirst] at h
      exact ih h _

theorem segmentFree_gather (signals : Signals α) (elements : List (Element α)) (before total : PhaseVector α) :
    SegmentFree (gather signals elements before total) := by
  induction elements generalizing before total with
  | nil => exact .ok total
  | cons e rest ih => exact (segmentFree_beyond signals e before).bind fun after _ => ih after _

/-! ### The outcome of an excursion -/

/-- What an excursion gives, from the line, the strengths and the start. -/
def outcome (m : Model α) (momentum : α) (signals : Signals α) (start : PhaseVector α) :
    Except Fault (PhaseVector α) :=
  if m.elements.isEmpty then .error (.emptyLine m.name)
  else if Scalar.le m.totalLength 0 then .error (.zeroLength m.name)
  else if Scalar.le momentum 0 then .error .momentumNotPositive
  else (fun total => total.map fun a => Scalar.sqrt (a / m.totalLength)) <$> gather signals m.elements start 0

omit [Scalar α] in
theorem beamline_of_ne_nil {m : Model α} (h : m.elements.isEmpty = false) : m.beamline = .ok ⟨0, m.elements⟩ := by
  have hpos : 0 < m.elements.length := List.length_pos_iff.mpr (List.isEmpty_eq_false_iff.mp h)
  have hpart : m.part 0 (m.length - 1 + 1) = ⟨0, m.elements⟩ := by
    rw [Model.part, List.drop_zero, Model.length, Nat.sub_zero, Nat.sub_add_cancel hpos, List.take_length]
  rw [Model.beamline, Model.fullSegment, h]
  exact congrArg Except.ok ((m.slice_eq_part _).trans hpart)

/-- An excursion with its sum left open. -/
def excursionBy (m : Model α) (momentum : α) (start : PhaseVector α)
    (sum : Range α → Bunch α → Action Fault (Plant α) (PhaseVector α)) : Action Fault (Plant α) (PhaseVector α) := do
  let line ← Action.lift m.beamline
  if Scalar.le line.totalLength 0 then throw (.zeroLength m.name)
  let b ← Action.lift (Bunch.ofVector start momentum 1 1)
  let total ← sum line b
  pure (total.map fun a => Scalar.sqrt (a / line.totalLength))

/-- A new tracker on a range. -/
def created (config : TrackerConfig) (r : Range α) (plant : Plant α) : Station α :=
  ((Station.setRange r).run (Station.create config plant)).2

/-- The sum along a line in a new tracker. -/
def alongLine (config : TrackerConfig) (start : PhaseVector α) (r : Range α) (b : Bunch α) :
    Action Fault (Plant α) (PhaseVector α) := do
  let plant ← get
  let station := created config r plant
  let (result, after) := (accumulate station.tracker r.elements start 0).run ⟨b, station.plant⟩
  set after.plant
  Action.lift result

/-- The sum along a stepper of a new tracker, with the bunch under a new number. -/
def alongStepper (config : TrackerConfig) (start : PhaseVector α) (r : Range α) (b : Bunch α) :
    Action Fault (Plant α) (PhaseVector α) := do
  let plant ← get
  let number := plant.bunches.fresh
  let station := created config r { plant with bunches := plant.bunches.insert number (.table b) }
  let (result, after) :=
    (do Station.initStepper number; readOff r.elements.length start 0 : Action Fault (Station α) _).run station
  set after.plant
  Action.lift result

theorem run_excursion_eq (m : Model α) (config : TrackerConfig) (momentum : α) (start : PhaseVector α)
    (plant : Plant α) :
    (excursion m config momentum start).run plant =
      (excursionBy m momentum start (alongLine config start)).run plant := by
  unfold excursion excursionBy
  cases m.beamline with
  | error fault => rfl
  | ok line =>
    rw [Action.run_bind_of_ok (Action.run_lift _ _), Action.run_bind_of_ok (Action.run_lift _ _)]
    by_cases hlength : Scalar.le line.totalLength 0 = true
    · simp only [hlength, if_true]
      rfl
    · simp only [hlength]
      cases Bunch.ofVector start momentum 1 1 <;> rfl

/-- The outcome hangs on the sum for a bunch of one particle only. -/
theorem fst_run_excursionBy {m : Model α} {start : PhaseVector α} {plant : Plant α}
    {sum : Range α → Bunch α → Action Fault (Plant α) (PhaseVector α)}
    (hsum : m.elements ≠ [] → ∀ b : Bunch α, b.particles = [start] →
      ((sum ⟨0, m.elements⟩ b).run plant).1 = gather plant.signals m.elements start 0) (momentum : α) :
    ((excursionBy m momentum start sum).run plant).1 = outcome m momentum plant.signals start := by
  unfold excursionBy outcome
  cases hempty : m.elements.isEmpty with
  | true =>
    have hline : m.beamline = .error (.emptyLine m.name) := by
      rw [Model.beamline, Model.fullSegment, hempty]
      rfl
    rw [Action.run_lift_bind_of_error hline]
    rfl
  | false =>
    have htotal : Range.totalLength ⟨0, m.elements⟩ = m.totalLength := rfl
    rw [Action.run_lift_bind_of_ok (beamline_of_ne_nil hempty)]
    simp only [htotal, Bool.false_eq_true, if_false]
    split
    · rfl
    · rw [Bunch.ofVector, Bunch.make]
      split
      · rfl
      · have hmap (r : Except Fault (PhaseVector α)) (f : PhaseVector α → PhaseVector α) :
            (r >>= fun total => .ok (f total)) = f <$> r := by
          cases r <;> rfl
        rw [Action.run_lift_bind_of_ok rfl, Action.fst_run_bind,
          hsum (List.isEmpty_eq_false_iff.mp hempty) ⟨momentum, 1, List.replicate 1 start⟩ rfl]
        exact hmap _ _

omit [Scalar α] in
/-- Making a tracker sets the log level of its name, and that is all but for the log. -/
theorem unlogged_created (config : TrackerConfig) (r : Range α) (plant : Plant α) :
    (created config r plant).plant.unlogged =
      { plant with levels := plant.levels.insert config.name config.level : Plant α }.unlogged :=
  (Plant.unlogged_note _ _).trans (Plant.unlogged_note _ _)

omit [Scalar α] in
theorem signals_created (config : TrackerConfig) (r : Range α) (plant : Plant α) :
    (created config r plant).plant.signals = plant.signals :=
  (congrArg Plant.signals (unlogged_created config r plant) :)

/-- A new tracker has no processes. -/
theorem fst_run_alongLine (config : TrackerConfig) (r : Range α) {b : Bunch α} {start : PhaseVector α}
    (hb : b.particles = [start]) (plant : Plant α) :
    ((alongLine config start r b).run plant).1 = gather plant.signals r.elements start 0 := by
  have hprocesses : (created config r plant).tracker.processes = [] := rfl
  have hsum := fst_run_accumulate hprocesses r.elements
    (show (⟨b, (created config r plant).plant⟩ : Ride α).bunch.particles = [start] from hb) 0
  rw [signals_created] at hsum
  exact hsum

/-- Nor does it make a difference to go along a stepper. -/
theorem fst_run_alongStepper (config : TrackerConfig) {r : Range α} (hr : r.elements ≠ []) {b : Bunch α}
    {start : PhaseVector α} (hb : b.particles = [start]) (plant : Plant α) :
    ((alongStepper config start r b).run plant).1 = gather plant.signals r.elements start 0 := by
  let number := plant.bunches.fresh
  let shared : Plant α := { plant with bunches := plant.bunches.insert number (.table b) }
  have hrange : (created config r shared).tracker.range = some r := rfl
  have hprocesses : (created config r shared).tracker.processes = [] := rfl
  have hbunches : (created config r shared).plant.bunches = shared.bunches :=
    (congrArg Plant.bunches (unlogged_created config r shared) :)
  have hnumber : (created config r shared).plant.bunches.get? number = some (.table b) := by
    rw [hbunches]
    exact Table.get?_insert_self _ _ _
  have hsum := fst_run_readOff hrange hr hprocesses hnumber hb 0
  rw [signals_created] at hsum
  exact hsum

/-- Neither the settings of the tracker nor anything in the plant but the strengths has a part in the outcome. -/
theorem fst_run_excursion (m : Model α) (config : TrackerConfig) (momentum : α) (start : PhaseVector α)
    (plant : Plant α) :
    ((excursion m config momentum start).run plant).1 = outcome m momentum plant.signals start := by
  rw [run_excursion_eq]
  exact fst_run_excursionBy (fun _ b hb => fst_run_alongLine config _ hb plant) momentum

/-- What an excursion comes to on a line whose lengths are no negative numbers. -/
structure IsExcursion (m : Model α) (momentum : α) (signals : Signals α) (start : PhaseVector α)
    (result : Except Fault (PhaseVector α)) : Prop where
  /-- Its segment is refused just where there is nothing to pass or no length. -/
  refused : (∃ fault, result = .error fault ∧ fault.isSegment = true) ↔
    m.elements = [] ∨ ∀ e ∈ m.elements, Scalar.le e.length 0 = true
  /-- Elsewhere it is the root of the mean of squares along the orbit. -/
  orbit : (∃ e ∈ m.elements, Scalar.le e.length 0 = false) → Scalar.le momentum 0 = false →
    ∀ z, IsOrbit signals m.elements start z → result = .ok (rootMeanSquare m.elements z)
  /-- A map that cannot be computed has the orbit lost. -/
  lost : (∃ e ∈ m.elements, Scalar.le e.length 0 = false) → Scalar.le momentum 0 = false →
    ∀ fault, behind signals m.elements start m.length = .error fault → result = .error fault

theorem totalLength_le_zero_iff [Scalar.Cumulative α] (h : ∀ e ∈ elements, Scalar.le 0 e.length = true) :
    Scalar.le (Element.totalLength elements) 0 = true ↔ ∀ e ∈ elements, Scalar.le e.length 0 = true := by
  rw [Element.totalLength, Scalar.sum_le_zero_iff (List.forall_mem_map.mpr h), List.forall_mem_map]

theorem outcome_of_length {m : Model α} [Scalar.Cumulative α] (h : ∀ e ∈ m.elements, Scalar.le 0 e.length = true)
    (hlong : ∃ e ∈ m.elements, Scalar.le e.length 0 = false) {momentum : α} (hmomentum : Scalar.le momentum 0 = false)
    (signals : Signals α) (start : PhaseVector α) :
    outcome m momentum signals start =
      (fun total => total.map fun a => Scalar.sqrt (a / m.totalLength)) <$> gather signals m.elements start 0 := by
  obtain ⟨e, he, hpos⟩ := hlong
  have hempty : m.elements.isEmpty = false := List.isEmpty_eq_false_iff.mpr (List.ne_nil_of_mem he)
  have htotal : Scalar.le m.totalLength 0 = false := by
    rw [Bool.eq_false_iff, ne_eq, Model.totalLength, totalLength_le_zero_iff h]
    exact fun hall => absurd (hall e he) (by rw [hpos]; exact Bool.false_ne_true)
  rw [outcome, hempty, htotal, hmomentum]
  rfl

/-- A line that is not empty and has a length is no segment to be refused. -/
theorem segmentFree_outcome {m : Model α} (hempty : m.elements.isEmpty = false)
    (htotal : Scalar.le m.totalLength 0 = false) (momentum : α) (signals : Signals α) (start : PhaseVector α) :
    SegmentFree (outcome m momentum signals start) := by
  rw [outcome, hempty, htotal]
  simp only [Bool.false_eq_true, if_false]
  split
  · exact .error rfl
  · rw [map_eq_pure_bind]
    exact (segmentFree_gather signals m.elements start 0).bind fun _ _ => .ok _

theorem isSegment_outcome_iff {m : Model α} {momentum : α} {signals : Signals α} {start : PhaseVector α} :
    (∃ fault, outcome m momentum signals start = .error fault ∧ fault.isSegment = true) ↔
      m.elements = [] ∨ Scalar.le m.totalLength 0 = true := by
  rw [← List.isEmpty_iff]
  cases hempty : m.elements.isEmpty with
  | true =>
    refine iff_of_true ⟨.emptyLine m.name, ?_, rfl⟩ (.inl rfl)
    rw [outcome, hempty]
    rfl
  | false =>
    cases htotal : Scalar.le m.totalLength 0 with
    | true =>
      refine iff_of_true ⟨.zeroLength m.name, ?_, rfl⟩ (.inr rfl)
      rw [outcome, hempty, htotal]
      rfl
    | false =>
      refine iff_of_false ?_ (by simp)
      rintro ⟨fault, hfault, hsegment⟩
      rw [segmentFree_outcome hempty htotal momentum signals start fault hfault] at hsegment
      cases hsegment

theorem isExcursion_outcome (m : Model α) [Scalar.Cumulative α] (h : ∀ e ∈ m.elements, Scalar.le 0 e.length = true)
    (momentum : α) (signals : Signals α) (start : PhaseVector α) :
    IsExcursion m momentum signals start (outcome m momentum signals start) where
  refused := by
    rw [isSegment_outcome_iff, Model.totalLength, totalLength_le_zero_iff h]
  orbit hlong hmomentum z hz := by
    rw [outcome_of_length h hlong hmomentum, gather_of_isOrbit hz]
    refine congrArg Except.ok (PhaseVector.ext_get fun c => ?_)
    rw [PhaseVector.get_map, PhaseVector.get_ofFn, rootMeanSquare, PhaseVector.get_ofFn, PhaseVector.get_zero]
    rfl
  lost hlong hmomentum fault hfault := by
    rw [outcome_of_length h hlong hmomentum, gather_of_lost hfault]
    rfl

/-- The outcome is the same wherever the strengths are. -/
theorem outcome_congr (m : Model α) (momentum : α) {signals signals' : Signals α}
    (h : signals'.strengths = signals.strengths) (start : PhaseVector α) :
    outcome m momentum signals' start = outcome m momentum signals start := by
  rw [outcome, outcome, gather_congr h]

/-! ### Exact excursions -/

section

variable {line : List (Element ℝ)} {square : Nat → ℝ}

/-- In exact arithmetic one step is the whole length of an element. -/
theorem beyond_real {e : Element ℝ} {m : TransferMap ℝ} (hm : e.transferMap e.length = .ok m) (signals : Signals ℝ)
    (v : PhaseVector ℝ) : beyond signals e v = .ok (m.act v + e.kick (signals.strength e) e.length) := by
  have hds : Scalar.overCount e.length 1 = .ok e.length := by
    rw [Scalar.overCount_real one_ne_zero, Nat.cast_one]
    exact congrArg Except.ok (div_one e.length)
  rw [beyond, hds]
  change (ofMath (e.transferMap e.length) >>= _) = _
  rw [hm]
  rfl

theorem exists_behind (signals : Signals ℝ) (line : List (Element ℝ)) (start : PhaseVector ℝ) (i : Nat) :
    ∃ v, behind signals line start i = .ok v := by
  unfold behind
  induction line.take i generalizing start with
  | nil => exact ⟨start, rfl⟩
  | cons e rest ih =>
    obtain ⟨m, hm⟩ := e.exists_transferMap e.length
    obtain ⟨v, hv⟩ := ih (m.act start + e.kick (signals.strength e) e.length)
    refine ⟨v, ?_⟩
    rw [List.foldlM_cons, beyond_real hm]
    exact hv

/-- In exact arithmetic no orbit is lost. -/
theorem exists_isOrbit (signals : Signals ℝ) (line : List (Element ℝ)) (start : PhaseVector ℝ) :
    ∃ z, IsOrbit signals line start z := by
  choose z hz using exists_behind signals line start
  exact ⟨z, fun i _ => hz i⟩

theorem sum_weighted_nonneg (hline : ∀ e ∈ line, 0 ≤ e.length) (hsquare : ∀ i, 0 ≤ square i) :
    0 ≤ (weighted line square).sum := by
  apply List.sum_nonneg
  intro a ha
  obtain ⟨i, hi, rfl⟩ := List.mem_mapIdx.mp ha
  exact mul_nonneg (hline _ (List.getElem_mem hi)) (hsquare i)

theorem sum_weighted_le (hline : ∀ e ∈ line, 0 ≤ e.length) {bound : ℝ} (hbound : ∀ i < line.length, square i ≤ bound) :
    (weighted line square).sum ≤ (line.map (·.length)).sum * bound := by
  induction line generalizing square with
  | nil => simp [weighted]
  | cons e rest ih =>
    obtain ⟨he, hrest⟩ := List.forall_mem_cons.mp hline
    have hfirst : e.length * square 0 ≤ e.length * bound :=
      mul_le_mul_of_nonneg_left (hbound 0 (Nat.succ_pos _)) he
    have hlater := ih hrest fun i hi => hbound (i + 1) (Nat.succ_lt_succ hi)
    rw [weighted_cons, List.map_cons, List.sum_cons, List.sum_cons, add_mul]
    exact add_le_add hfirst hlater

theorem sum_weighted_of_const {a : ℝ} (h : ∀ i < line.length, square i = a) :
    (weighted line square).sum = (line.map (·.length)).sum * a := by
  induction line generalizing square with
  | nil => simp [weighted]
  | cons e rest ih =>
    have hlater := ih fun i hi => h (i + 1) (Nat.succ_lt_succ hi)
    rw [weighted_cons, List.map_cons, List.sum_cons, List.sum_cons, add_mul, hlater, h 0 (Nat.succ_pos _)]

theorem sum_weighted_eq (line : List (Element ℝ)) (square : Nat → ℝ) :
    (weighted line square).sum = ∑ i : Fin line.length, (line.get i).length * square i := by
  rw [weighted, List.mapIdx_eq_ofFn, List.sum_ofFn]

theorem totalLength_real (line : List (Element ℝ)) : Element.totalLength line = (line.map (·.length)).sum :=
  Scalar.sum_real _

theorem squaredMean_real (z : Nat → PhaseVector ℝ) (c : Coordinate) (i : Nat) :
    squaredMean z c i = (((z i).get c + (z (i + 1)).get c) / 2) ^ 2 := by
  rw [squaredMean, Scalar.square, add_comm, ← pow_two]
  rfl

theorem meanSquare_real (line : List (Element ℝ)) (z : Nat → PhaseVector ℝ) (c : Coordinate) :
    meanSquare line z c =
      (∑ i : Fin line.length, (line.get i).length * (((z i).get c + (z (i + 1)).get c) / 2) ^ 2) /
        ∑ i : Fin line.length, (line.get i).length := by
  have hlengths : (line.map (·.length)).sum = ∑ i : Fin line.length, (line.get i).length :=
    (Fin.sum_univ_fun_getElem line (·.length)).symm
  rw [meanSquare, Scalar.sum_real, sum_weighted_eq, totalLength_real, hlengths]
  simp only [squaredMean_real]

theorem totalLength_pos (hline : ∀ e ∈ line, 0 ≤ e.length) (hlong : ∃ e ∈ line, 0 < e.length) :
    0 < Element.totalLength line := by
  obtain ⟨e, he, hpos⟩ := hlong
  have hnumbers : ∀ e ∈ line, Scalar.le 0 e.length = true := fun f hf => decide_eq_true (hline f hf)
  by_contra hnot
  have hzero : Scalar.le (Element.totalLength line) 0 = true := decide_eq_true (not_lt.mp hnot)
  exact absurd (of_decide_eq_true ((totalLength_le_zero_iff hnumbers).mp hzero e he)) (not_le.mpr hpos)

section

variable (hline : ∀ e ∈ line, 0 ≤ e.length) (hlong : ∃ e ∈ line, 0 < e.length) (z : Nat → PhaseVector ℝ)
  (c : Coordinate)

include hline hlong

theorem meanSquare_nonneg : 0 ≤ meanSquare line z c := by
  have hsum := sum_weighted_nonneg hline fun i => (squaredMean_real z c i).symm ▸ sq_nonneg _
  rw [meanSquare, Scalar.sum_real]
  exact div_nonneg hsum (totalLength_pos hline hlong).le

theorem exists_meanSquare_le :
    ∃ i < line.length, meanSquare line z c ≤ squaredMean z c i ∧
      ∀ j < line.length, squaredMean z c j ≤ squaredMean z c i := by
  have htotal := totalLength_pos hline hlong
  obtain ⟨e, he, -⟩ := hlong
  have hsome : (Finset.range line.length).Nonempty := Finset.nonempty_range_iff.mpr (List.length_pos_of_mem he).ne'
  obtain ⟨i, hi, hmax⟩ := (Finset.range line.length).exists_max_image (squaredMean z c) hsome
  have hbound : ∀ j < line.length, squaredMean z c j ≤ squaredMean z c i :=
    fun j hj => hmax j (Finset.mem_range.mpr hj)
  refine ⟨i, Finset.mem_range.mp hi, ?_, hbound⟩
  rw [meanSquare, Scalar.sum_real, div_le_iff₀ htotal, totalLength_real, mul_comm]
  exact sum_weighted_le hline hbound

theorem meanSquare_of_const {a : ℝ} (h : ∀ i < line.length, squaredMean z c i = a) : meanSquare line z c = a := by
  have hpos := totalLength_pos hline hlong
  rw [meanSquare, Scalar.sum_real, sum_weighted_of_const h, ← totalLength_real, mul_comm]
  exact mul_div_cancel_right₀ a hpos.ne'

end

end

end Rms

/-- The excursion of an orbit on a line whose lengths are no negative numbers is the root of the mean of squares along
the orbit that starts at the given vector, in a session too. It takes the strengths of the line as they are, and nothing
else that the plant or the settings of the tracker hold. It can be read off along a stepper just as well. In exact
arithmetic there is always such an orbit, and the mean of squares is no more than the largest square and equal to it
where the orbit is constant. -/
theorem excursion_is_root_mean_square :
    (∀ (α : Type) [Scalar α] [Scalar.Cumulative α] (m : Model α) (config : TrackerConfig) (momentum : α)
      (start : PhaseVector α) (plant : Plant α), (∀ e ∈ m.elements, Scalar.le 0 e.length = true) →
      Rms.IsExcursion m momentum plant.signals start ((Rms.excursion m config momentum start).run plant).1 ∧
        ∀ (config' : TrackerConfig) (plant' : Plant α), plant'.signals.strengths = plant.signals.strengths →
          ((Rms.excursion m config' momentum start).run plant').1 =
            ((Rms.excursion m config momentum start).run plant).1) ∧
    (∀ (α : Type) [Scalar α] (m : Model α) (config : TrackerConfig) (momentum : α) (start : PhaseVector α)
      (plant : Plant α),
      ((Rms.excursion m config momentum start).run plant).1 =
        ((Rms.excursionBy m momentum start (Rms.alongStepper config start)).run plant).1) ∧
    (∀ (on : String) (start : Nested Float) (s : Session) (q : Session.ExcursionRequest),
      ((Session.excursionRequest on start).run s).1 = .ok q → (∀ e ∈ q.model.elements, Scalar.le 0 e.length = true) →
      Rms.IsExcursion q.model q.solver.momentum s.plant.signals q.start ((Session.excursion on start).run s).1 ∧
        ∀ (config : TrackerConfig) (plant : Plant Float), plant.signals.strengths = s.plant.signals.strengths →
          ((Rms.excursion q.model config q.solver.momentum q.start).run plant).1 =
            ((Session.excursion on start).run s).1) ∧
    ∀ (m : Model ℝ) (config : TrackerConfig) (momentum : ℝ) (start : PhaseVector ℝ) (plant : Plant ℝ),
      (∀ e ∈ m.elements, 0 ≤ e.length) → (∃ e ∈ m.elements, 0 < e.length) → 0 < momentum →
      ∃ z, Rms.IsOrbit plant.signals m.elements start z ∧
        ((Rms.excursion m config momentum start).run plant).1 = .ok (PhaseVector.ofFn fun c => √(
          (∑ i : Fin m.length, (m.elements.get i).length * (((z i).get c + (z (i + 1)).get c) / 2) ^ 2) /
            ∑ i : Fin m.length, (m.elements.get i).length)) ∧
        ∀ c, 0 ≤ Rms.meanSquare m.elements z c ∧
          (∃ i < m.length, Rms.meanSquare m.elements z c ≤ Rms.squaredMean z c i ∧
            ∀ j < m.length, Rms.squaredMean z c j ≤ Rms.squaredMean z c i) ∧
          ∀ a, (∀ i ≤ m.length, (z i).get c = a) →
            Rms.meanSquare m.elements z c = a ^ 2 ∧ ∀ i < m.length, Rms.squaredMean z c i = a ^ 2 := by
  refine ⟨?_, ?_, ?_, ?_⟩
  · intro α _ _ m config momentum start plant hlengths
    simp only [Rms.fst_run_excursion]
    exact ⟨Rms.isExcursion_outcome m hlengths momentum plant.signals start,
      fun _ _ hstrengths => Rms.outcome_congr m momentum hstrengths start⟩
  · intro α _ m config momentum start plant
    rw [Rms.fst_run_excursion]
    exact (Rms.fst_run_excursionBy (fun hm b hb => Rms.fst_run_alongStepper config hm hb plant) momentum).symm
  · intro on start s q hq hlengths
    rw [Session.excursion_eq, Session.run_bind_of_keeps (Session.keeps_excursionRequest on start), hq]
    have hplant : ((Session.onPlant (Rms.excursion q.model q.tracker.config q.solver.momentum q.start)).run s).1 =
        ((Rms.excursion q.model q.tracker.config q.solver.momentum q.start).run s.plant).1 := rfl
    simp only [hplant, Rms.fst_run_excursion]
    exact ⟨Rms.isExcursion_outcome q.model hlengths q.solver.momentum s.plant.signals q.start,
      fun _ _ hstrengths => Rms.outcome_congr q.model q.solver.momentum hstrengths q.start⟩
  · intro m config momentum start plant hlengths hlong hmomentum
    obtain ⟨z, hz⟩ := Rms.exists_isOrbit plant.signals m.elements start
    have hnumbers : ∀ e ∈ m.elements, Scalar.le 0 e.length = true := fun e he => decide_eq_true (hlengths e he)
    have hexcursion := Rms.isExcursion_outcome m hnumbers momentum plant.signals start
    have hlong' : ∃ e ∈ m.elements, Scalar.le e.length 0 = false := by
      obtain ⟨e, he, hpos⟩ := hlong
      exact ⟨e, he, decide_eq_false (not_le.mpr hpos)⟩
    refine ⟨z, hz, ?_, ?_⟩
    · rw [Rms.fst_run_excursion, hexcursion.orbit hlong' (decide_eq_false (not_le.mpr hmomentum)) z hz,
        Rms.rootMeanSquare]
      simp only [Rms.meanSquare_real]
      rfl
    · intro c
      refine ⟨Rms.meanSquare_nonneg hlengths hlong z c, Rms.exists_meanSquare_le hlengths hlong z c, ?_⟩
      intro a ha
      have hsquares : ∀ i < m.length, Rms.squaredMean z c i = a ^ 2 := by
        intro i hi
        rw [Rms.squaredMean_real, ha i hi.le, ha (i + 1) hi, add_self_div_two]
      exact ⟨Rms.meanSquare_of_const hlengths hlong z c hsquares, hsquares⟩

namespace TwoDrifts

/-! ### A constant orbit -/

noncomputable def line : Model ℝ where
  name := "line"
  elements := [⟨0, "D1", "Drift", 1, .drift⟩, ⟨1, "D2", "Drift", Scalar.two, .drift⟩]

/-- An offset without a slope. -/
noncomputable def offset : PhaseVector ℝ := ⟨1, 0, -Scalar.two, 0, 0, 0⟩

theorem act_drift_offset (ds : ℝ) : (TransferMap.drift ds).act offset = offset := by
  apply PhaseVector.ext_get
  intro c
  rw [TransferMap.get_act, PhaseVector.dot_real, PhaseVector.sum_coordinates]
  cases c <;> simp [TransferMap.drift, offset, PhaseVector.get, Scalar.two]

theorem beyond_offset {e : Element ℝ} (he : e.optics = .drift) (signals : Signals ℝ) :
    Rms.beyond signals e offset = .ok offset := by
  have hmap : e.transferMap e.length = .ok (.drift e.length) := by rw [Element.transferMap, he]
  have hkick : e.kick (signals.strength e) e.length = 0 := by rw [Element.kick, he]
  rw [Rms.beyond_real hmap, hkick, act_drift_offset, PhaseVector.add_zero_real]

theorem isOrbit_offset (signals : Signals ℝ) : Rms.IsOrbit signals line.elements offset fun _ => offset := by
  have hend : Rms.IsOrbit signals [] offset fun _ => offset := by
    intro i hi
    obtain rfl := Nat.le_zero.mp hi
    rfl
  exact Rms.isOrbit_cons_iff.mpr ⟨rfl, beyond_offset rfl signals,
    Rms.isOrbit_cons_iff.mpr ⟨rfl, beyond_offset rfl signals, hend⟩⟩

open MonitoredRing in
theorem excursion_of_offset :
    (∃ fault, ((Rms.excursion (⟨"line", [], []⟩ : Model ℝ) { } 1 offset).run { }).1 = .error fault ∧
      fault.isSegment = true) ∧
    (∀ plant, plant.signals.strengths = .empty →
      ((Rms.excursion line { } 1 offset).run plant).1 = .ok ⟨1, 0, 2, 0, 0, 0⟩) ∧
    ∃ q, ((Session.excursionRequest "finder" origin).run session).1 = .ok q ∧
      Rms.IsExcursion q.model q.solver.momentum session.plant.signals q.start
        ((Session.excursion "finder" origin).run session).1 := by
  obtain ⟨hany, -, hsession, hexact⟩ := excursion_is_root_mean_square
  have hlengths : ∀ e ∈ line.elements, 0 ≤ e.length := by simp [line, Scalar.two]
  have hlong : ∃ e ∈ line.elements, 0 < e.length := ⟨_, List.mem_cons_self, one_pos⟩
  refine ⟨?_, ?_, ?_⟩
  · obtain ⟨hempty, -⟩ := hany ℝ ⟨"line", [], []⟩ { } 1 offset { } fun e he => absurd he List.not_mem_nil
    exact hempty.refused.mpr (.inl rfl)
  · intro plant hplant
    obtain ⟨-, hsame⟩ := hany ℝ line { } 1 offset { } fun e he => decide_eq_true (hlengths e he)
    obtain ⟨z, hz, hresult, hbounds⟩ := hexact line { } 1 offset { } hlengths hlong one_pos
    have hconst : ∀ i ≤ line.length, z i = offset := fun i hi =>
      Except.ok.inj ((hz i hi).symm.trans (isOrbit_offset _ i hi))
    rw [hsame { } plant hplant, hresult]
    refine congrArg Except.ok (PhaseVector.ext_get fun c => ?_)
    have hmean := (hbounds c).2.2 (offset.get c) fun i hi => by rw [hconst i hi]
    rw [PhaseVector.get_ofFn]
    refine (congrArg Real.sqrt ((Rms.meanSquare_real line.elements z c).symm.trans hmean.1)).trans ?_
    rw [Real.sqrt_sq_eq_abs]
    cases c <;> simp [offset, PhaseVector.get, Scalar.two]
  · obtain ⟨q, hq, hlength⟩ := exists_ok_of_any
      (show ((Session.excursionRequest "finder" origin).run session).1.toOption.any
        (fun q => q.model.elements.all fun e => Scalar.le 0 e.length) = true by decide +kernel)
    exact ⟨q, hq, (hsession "finder" origin session q hq (List.all_eq_true.mp hlength)).1⟩

end TwoDrifts

end BeamOptics
