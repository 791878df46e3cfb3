import BeamOptics.Proofs.Lattice.Part
import BeamOptics.Tracking.Tracker

/-!
# What monitors read

A monitor reads the centroid of the bunch that is right behind it. In a line without repeated elements nothing later
writes to it, so after a pass it still reads where the bunch was then.
-/

namespace BeamOptics

namespace Signals

variable {α : Type} [Scalar α]

/-- An element reads the transverse position of a bunch's centroid. -/
def Reads (s : Signals α) (e : Element α) (b : Bunch α) : Prop :=
  ∃ c, b.centroid = .ok c ∧ s.reading e = (c.x, c.y)

theorem Reads.of_apart {s s' : Signals α} {e : Element α} {b : Bunch α} (hreads : s.Reads e b) {tags : List Nat}
    (h : s'.apart tags = s.apart tags) (htag : e.tag ∉ tags) : s'.Reads e b := by
  unfold Reads
  rwa [reading_congr h htag]

theorem reads_observe (s : Signals α) {e : Element α} (hmonitor : e.isMonitor = true) {b : Bunch α}
    (hsize : b.size ≠ 0) : (s.observe e b).Reads e b := by
  obtain ⟨momentum, charge, _ | ⟨v, rest⟩⟩ := b
  · exact absurd rfl hsize
  · refine ⟨PhaseVector.ofFn (Bunch.mean (v :: rest)), rfl, ?_⟩
    unfold observe
    split
    · exact reading_setReading_self s e _
    · rename_i hother
      unfold Element.isMonitor at hmonitor
      split at hmonitor
      · rename_i hoptics
        exact absurd hoptics (hother _ _)
      · cases hmonitor

end Signals

namespace Pass

variable {α : Type} [Scalar α]

/-- Behind an element the signals are those before it, with what the element has observed of the bunch there. -/
theorem reach_throughElement {processes : List (BeamProcess α)} {e : Element α} {b : Bunch α} {signals : Signals α}
    {pass : Pass α} (h : (throughElement processes e).reach ⟨b, signals⟩ = .ok pass) :
    through processes signals e b = .ok pass.bunch ∧ pass.signals = signals.observe e pass.bunch := by
  obtain ⟨_, hrun⟩ := Action.exists_of_reach h
  obtain ⟨cut, -, -, hsignals⟩ := exists_of_run_throughElement hrun
  refine ⟨?_, hsignals⟩
  rw [through, h]
  rfl

/-- After a pass every monitor of a line without repeated elements reads the bunch that its part of the line up to and
including itself leads to. -/
theorem reads_throughLine {processes : List (BeamProcess α)} {index : Nat} {elements : List (Element α)} {b : Bunch α}
    {signals : Signals α} {pass : Pass α} (h : (throughLine processes index elements).reach ⟨b, signals⟩ = .ok pass)
    (hdistinct : (elements.map Element.tag).Nodup) (hsize : b.size ≠ 0) {i : Nat} {e : Element α}
    (he : elements[i]? = some e) (hmonitor : e.isMonitor = true) :
    ∃ b', along processes signals index (elements.take (i + 1)) b = .ok b' ∧ pass.signals.Reads e b' := by
  induction elements generalizing index b signals i with
  | nil => cases he
  | cons head rest ih =>
    rw [throughLine, Action.reach_bind, Action.reach_mapError] at h
    obtain ⟨passed, hpassed, hrest⟩ := bind_eq_ok_iff.mp h
    obtain ⟨hthrough, hsignals⟩ := reach_throughElement (mapError_eq_ok_iff.mp hpassed)
    obtain ⟨hhead, hdistinct⟩ := List.nodup_cons.mp hdistinct
    have hsize' : passed.bunch.size ≠ 0 := by rwa [view_through Bunch.steady_size hthrough]
    have halong (elements : List (Element α)) : along processes signals index (head :: elements) b =
        along processes signals (index + 1) elements passed.bunch := by
      rw [along, hthrough]
      rfl
    rw [List.take_succ_cons, halong]
    cases i with
    | zero =>
      obtain rfl : head = e := Option.some.inj he
      refine ⟨passed.bunch, rfl, ?_⟩
      have hread : passed.signals.Reads head passed.bunch := hsignals ▸ signals.reads_observe hmonitor hsize'
      have hkept := keeps_apart_throughLine processes (index + 1)
        fun f (hf : f ∈ rest) _ => List.mem_map_of_mem (f := Element.tag) hf
      exact hread.of_apart (hkept.of_reach hrest) hhead
    | succ i =>
      have hstrengths : passed.signals.strengths = signals.strengths := by rw [hsignals, Signals.strengths_observe]
      rw [← along_congr_strengths processes hstrengths]
      exact ih hrest hdistinct hsize' he

end Pass

namespace Ride

variable {α : Type} [Scalar α]

/-- A tracker lets a bunch pass an element as the processes attached to it say. -/
theorem reach_throughElement (t : Tracker α) (e : Element α) (ride : Ride α) :
    (throughElement t e).reach ride =
      (fun pass => { ride with bunch := pass.bunch, plant := { ride.plant with signals := pass.signals } }) <$>
        (Pass.throughElement (ride.plant.processesOf t.processes) e).reach ⟨ride.bunch, ride.plant.signals⟩ := by
  unfold throughElement onPass
  rw [Action.reach_ask_bind, Action.reach_outcome_bind, Action.run_focus]
  rcases hrun : (Pass.throughElement (ride.plant.processesOf t.processes) e).run ⟨ride.bunch, ride.plant.signals⟩
    with ⟨fault | ⟨⟩, pass⟩
  · rw [Action.reach_of_error hrun]
    rfl
  · rw [Action.reach_of_ok hrun]
    rfl

/-- An element that is no monitor leaves nothing in the plant, whatever it does to the bunch. -/
theorem reach_throughElement_of_through {t : Tracker α} {e : Element α} {ride : Ride α} {b : Bunch α}
    (hmonitor : e.isMonitor = false)
    (h : Pass.through (ride.plant.processesOf t.processes) ride.plant.signals e ride.bunch = .ok b) :
    (throughElement t e).reach ride = .ok { ride with bunch := b } := by
  cases hpass : (Pass.throughElement (ride.plant.processesOf t.processes) e).reach
      ⟨ride.bunch, ride.plant.signals⟩ with
  | error fault =>
    rw [Pass.through, hpass] at h
    cases h
  | ok pass =>
    obtain ⟨hthrough, hsignals⟩ := Pass.reach_throughElement hpass
    obtain rfl := Except.ok.inj (hthrough.symm.trans h)
    rw [Signals.observe_of_isMonitor_false _ hmonitor] at hsignals
    rw [reach_throughElement, hpass]
    change Except.ok { ride with bunch := pass.bunch, plant := { ride.plant with signals := pass.signals } } = _
    rw [hsignals]

end Ride

end BeamOptics
