import BeamOptics.Proofs.Tracking.Frame

/-!
# Stepping through a range

A range can be tracked as a whole, or one element after the other. Both ways the same elements are passed in the same
order, so that step by step a bunch is led where tracking leads it at once, and where tracking fails at an element the
step through this element fails. The cursor stays there.
-/

namespace BeamOptics

namespace Range

variable {α : Type}

/-- The elements of a range, each with whether another one follows. -/
def course (r : Range α) : List (Element α × Bool) :=
  r.elements.zip (List.replicate (r.last - r.first) true ++ [false])

/-- Some elements from an index on, each with whether another one follows in the range. -/
def courseFrom (r : Range α) (index : Nat) (elements : List (Element α)) : List (Element α × Bool) :=
  (elements.zipIdx index).map fun item => (item.1, decide (item.2 < r.last))

theorem length_courseFrom (r : Range α) (index : Nat) (elements : List (Element α)) :
    (r.courseFrom index elements).length = elements.length := by
  rw [courseFrom, List.length_map, List.length_zipIdx]

theorem courseFrom_cons (r : Range α) (index : Nat) (e : Element α) (rest : List (Element α)) :
    r.courseFrom index (e :: rest) = (e, decide (index < r.last)) :: r.courseFrom (index + 1) rest := rfl

theorem courseFrom_append (r : Range α) (index : Nat) (front back : List (Element α)) :
    r.courseFrom index (front ++ back) = r.courseFrom index front ++ r.courseFrom (index + front.length) back := by
  rw [courseFrom, List.zipIdx_append, List.map_append]
  rfl

/-- Another element follows each element of the range but the last. -/
theorem course_eq_courseFrom {r : Range α} (h : r.elements ≠ []) : r.course = r.courseFrom r.first r.elements := by
  have hpos := List.length_pos_iff.mpr h
  have hlast : r.last = r.first + (r.elements.length - 1) := rfl
  have hfirsts : (r.courseFrom r.first r.elements).map Prod.fst = r.elements := by
    rw [courseFrom, List.map_map]
    exact List.zipIdx_map_fst r.first r.elements
  refine (List.zip_of_prod hfirsts ?_).symm
  apply List.ext_getElem?
  intro i
  rw [courseFrom, List.map_map, List.getElem?_map, List.getElem?_zipIdx, List.getElem?_append, List.length_replicate]
  by_cases hi : i < r.last - r.first
  · have hin : i < r.elements.length := by omega
    have hnext : r.first + i < r.last := by omega
    rw [if_pos hi, List.getElem?_eq_getElem hin, List.getElem?_replicate_of_lt hi]
    simp [hnext]
  · rw [if_neg hi]
    by_cases hend : i = r.last - r.first
    · have hin : i < r.elements.length := by omega
      have hnext : ¬r.first + i < r.last := by omega
      rw [List.getElem?_eq_getElem hin, show i - (r.last - r.first) = 0 by omega]
      simp [hnext]
    · have hout : r.elements.length ≤ i := by omega
      have hbehind : [false].length ≤ i - (r.last - r.first) := by
        rw [List.length_singleton]
        omega
      rw [List.getElem?_eq_none hout, List.getElem?_eq_none hbehind]
      rfl

theorem take_course {r : Range α} {front back : List (Element α)} {e : Element α}
    (h : r.elements = front ++ e :: back) : r.course.take front.length = r.courseFrom r.first front := by
  have hne : r.elements ≠ [] := by
    rw [h]
    exact List.append_ne_nil_of_right_ne_nil front (List.cons_ne_nil e back)
  rw [course_eq_courseFrom hne, h, courseFrom_append]
  exact List.take_left' (r.length_courseFrom r.first front)

theorem at?_add (r : Range α) (i : Nat) : r.at? (r.first + i) = r.elements[i]? := by
  rw [at?, if_pos (Nat.le_add_right _ _), Nat.add_sub_cancel_left]

/-- What stands in a range from an index on has its tail there from the next index on. -/
theorem at?_tail {r : Range α} {index : Nat} {e : Element α} {rest : List (Element α)}
    (h : ∀ i f, (e :: rest)[i]? = some f → r.at? (index + i) = some f) {i : Nat} {f : Element α}
    (hf : rest[i]? = some f) : r.at? (index + 1 + i) = some f := by
  rw [Nat.add_right_comm, Nat.add_assoc]
  exact h (i + 1) f hf

theorem at?_eq_some {r : Range α} {index : Nat} (hr : r.elements ≠ []) (hfirst : r.first ≤ index)
    (hlast : index ≤ r.last) : ∃ e, r.elements[index - r.first]? = some e ∧ r.at? index = some e := by
  have hpos := List.length_pos_iff.mpr hr
  have hin : index - r.first < r.elements.length := by
    rw [last] at hlast
    omega
  refine ⟨r.elements[index - r.first], List.getElem?_eq_getElem hin, ?_⟩
  rw [at?, if_pos hfirst, List.getElem?_eq_getElem hin]

theorem at?_eq_none {r : Range α} {index : Nat} (hlast : r.last < index) : r.at? index = none := by
  rw [last] at hlast
  unfold at?
  split
  · apply List.getElem?_eq_none
    omega
  · rfl

end Range

namespace Pass

variable {α : Type} [Scalar α] {processes : List (BeamProcess α)}

theorem run_throughLine_cons {index : Nat} {e : Element α} {pass pass' : Pass α}
    (h : (throughElement processes e).run pass = (.ok (), pass')) (rest : List (Element α)) :
    (throughLine processes index (e :: rest)).run pass = (throughLine processes (index + 1) rest).run pass' := by
  have hfirst : ((throughElement processes e).mapError fun fault => (index, fault)).run pass = (.ok (), pass') := by
    rw [Action.run_mapError, h]
    rfl
  rw [throughLine, Action.run_bind_of_ok hfirst]

theorem run_throughLine_cons_error {index : Nat} {e : Element α} {fault : Fault} {pass pass' : Pass α}
    (h : (throughElement processes e).run pass = (.error fault, pass')) (rest : List (Element α)) :
    (throughLine processes index (e :: rest)).run pass = (.error (index, fault), pass') := by
  have hfirst : ((throughElement processes e).mapError fun fault => (index, fault)).run pass =
      (.error (index, fault), pass') := by
    rw [Action.run_mapError, h]
    rfl
  rw [throughLine, Action.run_bind_of_error hfirst]

/-- A line that cannot be passed is passed up to one of its elements. -/
theorem exists_of_throughLine_error {index i : Nat} {elements : List (Element α)} {fault : Fault} {pass pass' : Pass α}
    (h : (throughLine processes index elements).run pass = (.error (i, fault), pass')) :
    ∃ front e back pass₁, elements = front ++ e :: back ∧ i = index + front.length ∧
      (throughLine processes index front).run pass = (.ok (), pass₁) ∧
      (throughElement processes e).run pass₁ = (.error fault, pass') := by
  induction elements generalizing index pass with
  | nil => cases h
  | cons e rest ih =>
    rcases hrun : (throughElement processes e).run pass with ⟨stop | _, pass₁⟩
    · rw [run_throughLine_cons_error hrun] at h
      cases h
      exact ⟨[], e, rest, pass, rfl, rfl, rfl, hrun⟩
    · rw [run_throughLine_cons hrun] at h
      obtain ⟨front, e', back, pass₂, rfl, hi, hfront, he'⟩ := ih h
      refine ⟨e :: front, e', back, pass₂, rfl, ?_, ?_, he'⟩
      · rw [hi, List.length_cons]
        omega
      · rw [run_throughLine_cons hrun, hfront]

theorem exists_of_throughLine_cons {index : Nat} {e : Element α} {rest : List (Element α)} {pass pass' : Pass α}
    (h : (throughLine processes index (e :: rest)).run pass = (.ok (), pass')) :
    ∃ pass₁, (throughElement processes e).run pass = (.ok (), pass₁) ∧
      (throughLine processes (index + 1) rest).run pass₁ = (.ok (), pass') := by
  obtain ⟨_, pass₁, hfirst, hrest⟩ := Action.exists_of_run_bind h
  refine ⟨pass₁, ?_, hrest⟩
  rw [Action.run_mapError] at hfirst
  rcases hrun : (throughElement processes e).run pass with ⟨stop | _, pass₂⟩ <;> rw [hrun] at hfirst <;> cases hfirst
  rfl

/-- A line ends at an element that cannot be passed, whatever follows there. -/
theorem run_throughLine_of_error {index : Nat} {front : List (Element α)} {e : Element α} {fault : Fault}
    {pass pass₁ pass' : Pass α} (hfront : (throughLine processes index front).run pass = (.ok (), pass₁))
    (he : (throughElement processes e).run pass₁ = (.error fault, pass')) (back : List (Element α)) :
    (throughLine processes index (front ++ e :: back)).run pass = (.error (index + front.length, fault), pass') := by
  induction front generalizing index pass with
  | nil =>
    cases hfront
    exact run_throughLine_cons_error he back
  | cons f front ih =>
    obtain ⟨passed, hf, hrest⟩ := exists_of_throughLine_cons hfront
    rw [List.cons_append, run_throughLine_cons hf, ih hrest, List.length_cons, Nat.add_right_comm, Nat.add_assoc]

end Pass

namespace Ride

variable {α : Type} [Scalar α] {t : Tracker α} {b : Bunch α} {plant : Plant α} {pass : Pass α}

theorem run_throughElement {e : Element α}
    (h : (Pass.throughElement (plant.processesOf t.processes) e).run ⟨b, plant.signals⟩ = (.ok (), pass)) :
    (throughElement t e).run ⟨b, plant⟩ = (.ok (), ⟨pass.bunch, { plant with signals := pass.signals }⟩) := by
  rw [throughElement, Action.run_bind_of_ok (Action.run_ask _ _), Action.run_bind_of_ok (Action.run_outcome _ _)]
  simp only [onPass, Action.run_focus, h]
  rfl

theorem run_throughElement_error {e : Element α} {fault : Fault}
    (h : (Pass.throughElement (plant.processesOf t.processes) e).run ⟨b, plant.signals⟩ = (.error fault, pass)) :
    (throughElement t e).run ⟨b, plant⟩ =
      (.error fault, ⟨pass.bunch, Plant.noteAll { plant with signals := pass.signals } fault.notes⟩) := by
  rw [throughElement, Action.run_bind_of_ok (Action.run_ask _ _), Action.run_bind_of_ok (Action.run_outcome _ _)]
  simp only [onPass, Action.run_focus, h]
  rfl

/-- Tracking passes the range, and tells of it in the log and to observers only. -/
theorem run_track {r : Range α} (hrange : t.range = some r) {result : Except (Nat × Fault) Unit}
    (h : (Pass.throughLine (plant.processesOf t.processes) r.first r.elements).run ⟨b, plant.signals⟩ =
      (result, pass)) :
    ∃ plant', (track t).run ⟨b, plant⟩ = (result.mapError Range.surface, ⟨pass.bunch, plant'⟩) ∧
      plant'.apart [] = { plant with signals := pass.signals }.apart [] := by
  have happart := plant.apart_tellAll [] t.name t.observers (.start ⟨t.name, r.span, b.size⟩)
  have hsignals := plant.signals_tellAll t.name t.observers (.start ⟨t.name, r.span, b.size⟩)
  rw [track, Action.run_lift_bind_of_ok (Tracker.requireRange_of_range hrange),
    Action.run_bind_of_ok (Action.run_ask _ _), tellAll, Action.run_bind_of_ok (Action.run_update _ _),
    Action.run_bind_of_ok (Action.run_ask _ _), Action.run_bind_of_ok (Action.run_outcome _ _)]
  dsimp only
  rw [Plant.processesOf_of_fixtures (Plant.fixtures_of_apart happart)]
  generalize plant.tellAll t.name t.observers (.start ⟨t.name, r.span, b.size⟩) = started at happart hsignals ⊢
  rw [← hsignals] at h
  have hpassed : Plant.apart { started with signals := pass.signals } [] =
      Plant.apart { plant with signals := pass.signals } [] :=
    congrArg (fun p : Plant α => { p with signals := pass.signals.apart [] }) happart
  simp only [onPass, Action.run_focus, h]
  rcases result with ⟨index, fault⟩ | _
  · refine ⟨_, rfl, ?_⟩
    rw [Plant.apart_tellAll, Plant.apart_of_unlogged (Plant.unlogged_noteAll _ _), hpassed]
  · refine ⟨_, rfl, ?_⟩
    rw [Plant.apart_tellAll, hpassed]

end Ride

namespace Station

variable {α : Type}

/-- The station with a shared bunch on its way, right before the element at an index. -/
def aboard (s : Station α) (number index : Nat) (pass : Pass α) : Station α where
  tracker := { s.tracker with stepper := some ⟨number, index⟩ }
  plant := { s.plant with signals := pass.signals, bunches := s.plant.bunches.insert number (.table pass.bunch) }

/-- Putting the bunch back is all that is left to do after tracking it. -/
theorem apart_aboard {s : Station α} {plant : Plant α} {number index : Nat} {pass : Pass α}
    (h : plant.apart [] = { s.plant with signals := pass.signals }.apart []) :
    (s.aboard number index pass).plant.apart [] =
      { plant with bunches := plant.bunches.insert number (.table pass.bunch) }.apart [] :=
  congrArg (fun p : Plant α => { p with bunches := p.bunches.insert number (.table pass.bunch) }) h.symm

theorem run_initStepper {s : Station α} {r : Range α} {number : Nat} {b : Bunch α} (hrange : s.tracker.range = some r)
    (hb : s.plant.bunches.get? number = some (.table b)) :
    (initStepper number).run s = (.ok (), s.aboard number r.first ⟨b, s.plant.signals⟩) := by
  rw [initStepper, Action.run_get_bind, Action.run_lift_bind_of_ok (Tracker.requireRange_of_range hrange), aboard,
    Table.insert_of_get? hb]
  rfl

theorem run_rideShared {β : Type} {s : Station α} {number : Nat} {b : Bunch α}
    (hb : s.plant.bunches.get? number = some (.table b)) {a : Tracker α → Action Fault (Ride α) β}
    {result : Except Fault β} {after : Ride α} (h : (a s.tracker).run ⟨b, s.plant⟩ = (result, after)) :
    (rideShared number a).run s =
      (result, { s with
        plant := { after.plant with bunches := after.plant.bunches.insert number (.table after.bunch) } }) := by
  have hride : (ride b a).run s = (.ok (result, after.bunch), { s with plant := after.plant }) := by
    have hrun : (ride b a).run s =
        (.ok (((a s.tracker).run ⟨b, s.plant⟩).1, ((a s.tracker).run ⟨b, s.plant⟩).2.bunch),
          { s with plant := ((a s.tracker).run ⟨b, s.plant⟩).2.plant }) := rfl
    rw [hrun, h]
  unfold rideShared
  rw [Action.run_get_bind]
  simp only [hb]
  rw [Action.run_lift_bind_of_ok (show (Load.table b).bunch = .ok b from rfl), Action.run_bind_of_ok hride]
  rfl

variable [Scalar α]

/-- Where there is no current element, there is no step, and nothing happens. -/
theorem run_step_of_current {s : Station α} {fault : Fault} (h : s.tracker.current = .error fault) :
    (step : Action Fault (Station α) Bool).run s = (.error fault, s) := by
  rw [step, Action.run_get_bind, Action.run_lift_bind_of_error h]

theorem run_step_eq {s : Station α} {e : Element α} {number : Nat} (he : s.tracker.current = .ok e)
    (hnumber : s.tracker.steppedBunch = .ok number) :
    step.run s =
      (do
        rideShared number fun t => Ride.throughElement t e
        onTracker (Action.update Tracker.advance)
        Action.ask fun s => s.tracker.hasNext : Action Fault (Station α) Bool).run s := by
  rw [step, Action.run_get_bind, Action.run_lift_bind_of_ok he, Action.run_lift_bind_of_ok hnumber]

section

variable {s : Station α} {r : Range α} {number index : Nat} {e : Element α} {pass pass' : Pass α}

omit [Scalar α] in
theorem current_aboard (hrange : s.tracker.range = some r) (he : r.at? index = some e) :
    (s.aboard number index pass).tracker.current = .ok e := by
  simp only [Tracker.current, aboard, hrange, he]

/-- A step takes the bunch through the current element and the cursor one further. -/
theorem run_step_aboard (hrange : s.tracker.range = some r) (he : r.at? index = some e)
    (h : (Pass.throughElement (s.plant.processesOf s.tracker.processes) e).run pass = (.ok (), pass')) :
    step.run (s.aboard number index pass) = (.ok (decide (index < r.last)), s.aboard number (index + 1) pass') := by
  have hb := Table.get?_insert_self s.plant.bunches number (.table pass.bunch)
  have hride := run_rideShared (s := s.aboard number index pass) (a := fun t => Ride.throughElement t e) hb
    (Ride.run_throughElement h)
  have hput : (s.plant.bunches.insert number (.table pass.bunch)).insert number (.table pass'.bunch) =
      s.plant.bunches.insert number (.table pass'.bunch) := Table.insert_insert ..
  have hnext : (s.aboard number (index + 1) pass').tracker.hasNext = decide (index < r.last) := by
    simp only [Tracker.hasNext, aboard, hrange]
    rfl
  rw [run_step_eq (current_aboard hrange he) rfl, Action.run_bind_of_ok hride]
  simp only [aboard, hput]
  rw [← hnext]
  rfl

/-- A step that fails leaves the cursor before the element. -/
theorem run_step_aboard_error (hrange : s.tracker.range = some r) (he : r.at? index = some e) {fault : Fault}
    (h : (Pass.throughElement (s.plant.processesOf s.tracker.processes) e).run pass = (.error fault, pass')) :
    ∃ plant, step.run (s.aboard number index pass) = (.error fault, ⟨(s.aboard number index pass).tracker, plant⟩) ∧
      plant.unlogged = (s.aboard number index pass').plant.unlogged := by
  have hb := Table.get?_insert_self s.plant.bunches number (.table pass.bunch)
  have hride := run_rideShared (s := s.aboard number index pass) (a := fun t => Ride.throughElement t e) hb
    (Ride.run_throughElement_error h)
  rw [run_step_eq (current_aboard hrange he) rfl, Action.run_bind_of_error hride]
  refine ⟨_, rfl, ?_⟩
  have hnoted := Plant.unlogged_noteAll { (s.aboard number index pass).plant with signals := pass'.signals } fault.notes
  have hput : (s.plant.bunches.insert number (.table pass.bunch)).insert number (.table pass'.bunch) =
      s.plant.bunches.insert number (.table pass'.bunch) := Table.insert_insert ..
  have hsame := congrArg
    (fun p : Plant α => { p with bunches := p.bunches.insert number (.table pass'.bunch) }) hnoted
  refine hsame.trans ?_
  simp only [Plant.unlogged, aboard, hput]

end

/-! ### A whole course -/

/-- The current element, and what the step through it returns. -/
def visit : Action Fault (Station α) (Element α × Bool) := do
  let s ← get
  let e ← Action.lift s.tracker.current
  let more ← step
  pure (e, more)

def visits : Nat → Action Fault (Station α) (List (Element α × Bool))
  | 0 => pure []
  | n + 1 => do
    let first ← visit
    let rest ← visits n
    pure (first :: rest)

section

variable {s : Station α} {r : Range α} (number : Nat) {index : Nat} {pass pass' : Pass α}

theorem run_visit_aboard (hrange : s.tracker.range = some r) {e : Element α} (he : r.at? index = some e)
    (h : (Pass.throughElement (s.plant.processesOf s.tracker.processes) e).run pass = (.ok (), pass')) :
    visit.run (s.aboard number index pass) =
      (.ok (e, decide (index < r.last)), s.aboard number (index + 1) pass') := by
  rw [visit, Action.run_get_bind, Action.run_lift_bind_of_ok (current_aboard hrange he),
    Action.run_bind_of_ok (run_step_aboard hrange he h)]
  rfl

theorem run_visit_aboard_error (hrange : s.tracker.range = some r) {e : Element α} (he : r.at? index = some e)
    {fault : Fault} (h : (Pass.throughElement (s.plant.processesOf s.tracker.processes) e).run pass =
      (.error fault, pass')) :
    ∃ s', visit.run (s.aboard number index pass) = (.error fault, s') := by
  obtain ⟨plant, hstep, -⟩ := run_step_aboard_error hrange he h
  rw [visit, Action.run_get_bind, Action.run_lift_bind_of_ok (current_aboard hrange he)]
  exact ⟨_, Action.run_bind_of_error hstep _⟩

/-- Steps through some elements of the range lead the bunch where the line of these elements leads it. -/
theorem run_visits_aboard (hrange : s.tracker.range = some r) {front : List (Element α)}
    (hfront : ∀ i e, front[i]? = some e → r.at? (index + i) = some e)
    (h : (Pass.throughLine (s.plant.processesOf s.tracker.processes) index front).run pass = (.ok (), pass')) :
    (visits front.length).run (s.aboard number index pass) =
      (.ok (r.courseFrom index front), s.aboard number (index + front.length) pass') := by
  induction front generalizing index pass with
  | nil =>
    cases h
    rfl
  | cons e rest ih =>
    obtain ⟨pass₁, hfirst, hrest⟩ := Pass.exists_of_throughLine_cons h
    have he : r.at? index = some e := hfront 0 e rfl
    have hlater : ∀ i f, rest[i]? = some f → r.at? (index + 1 + i) = some f := fun i f => Range.at?_tail hfront
    rw [List.length_cons, visits, Action.run_bind_of_ok (run_visit_aboard number hrange he hfirst),
      Action.run_bind_of_ok (ih hlater hrest), Range.courseFrom_cons, Nat.add_right_comm, Nat.add_assoc]
    rfl

end

/-- Stepping through a range with a shared bunch does what tracking through it does. If tracking succeeds, there is a
step for each element, and another element follows each but the last; if tracking fails at an element, the steps lead
up to it and the step through it fails there. In the end everything is as after tracking but for the cursor, the log
and the records of observers. -/
def StepsLikeTrack (s : Station α) (r : Range α) (number : Nat) : Prop :=
  match (rideShared number Ride.track).run s with
  | (.ok (), tracked) =>
    ∃ plant, (do initStepper number; visits r.elements.length).run s =
        (.ok r.course, ⟨{ s.tracker with stepper := some ⟨number, r.last + 1⟩ }, plant⟩) ∧
      plant.apart [] = tracked.plant.apart []
  | (.error fault, tracked) =>
    ∃ i e cause before after, r.first ≤ i ∧ r.elements[i - r.first]? = some e ∧ fault = Range.surface (i, cause) ∧
      Tracker.current { s.tracker with stepper := some ⟨number, i⟩ } = .ok e ∧
      (do initStepper number; visits (i - r.first)).run s =
        (.ok (r.course.take (i - r.first)), ⟨{ s.tracker with stepper := some ⟨number, i⟩ }, before⟩) ∧
      step.run ⟨{ s.tracker with stepper := some ⟨number, i⟩ }, before⟩ =
        (.error cause, ⟨{ s.tracker with stepper := some ⟨number, i⟩ }, after⟩) ∧
      after.apart [] = tracked.plant.apart []

theorem stepsLikeTrack {s : Station α} {r : Range α} (hrange : s.tracker.range = some r) (hr : r.elements ≠ [])
    {number : Nat} {b : Bunch α} (hb : s.plant.bunches.get? number = some (.table b)) :
    s.StepsLikeTrack r number := by
  have hstart := run_initStepper hrange hb
  rcases hline : (Pass.throughLine (s.plant.processesOf s.tracker.processes) r.first r.elements).run
    ⟨b, s.plant.signals⟩ with ⟨⟨i, cause⟩ | _, pass⟩
  · obtain ⟨plant, htrack, hplant⟩ := Ride.run_track hrange hline
    obtain ⟨front, e, back, pass₁, helements, rfl, hfront, hfails⟩ := Pass.exists_of_throughLine_error hline
    have htracked : (Ride.track s.tracker).run ⟨b, s.plant⟩ =
        (.error (Range.surface (r.first + front.length, cause)), ⟨pass.bunch, plant⟩) := htrack
    have he : r.elements[front.length]? = some e := by
      simp [helements]
    have hat : r.at? (r.first + front.length) = some e := (r.at?_add front.length).trans he
    have hbefore : ∀ i e, front[i]? = some e → r.at? (r.first + i) = some e := by
      intro i e' he'
      obtain ⟨hi, -⟩ := List.getElem?_eq_some_iff.mp he'
      rw [Range.at?_add, helements, List.getElem?_append_left hi, he']
    obtain ⟨stopped, hstep, hstopped⟩ := run_step_aboard_error hrange hat hfails
    have hsteps := run_visits_aboard number hrange hbefore hfront
    rw [StepsLikeTrack, run_rideShared hb htracked]
    refine ⟨r.first + front.length, e, cause, _, stopped, Nat.le_add_right _ _, ?_, rfl, ?_, ?_, hstep, ?_⟩
    · rwa [Nat.add_sub_cancel_left]
    · exact (current_aboard hrange hat : (s.aboard number _ pass₁).tracker.current = .ok e)
    · rw [Nat.add_sub_cancel_left, Action.run_bind_of_ok hstart, hsteps, Range.take_course helements]
      rfl
    · exact (Plant.apart_of_unlogged hstopped []).trans (apart_aboard hplant)
  · obtain ⟨plant, htrack, hplant⟩ := Ride.run_track hrange hline
    have htracked : (Ride.track s.tracker).run ⟨b, s.plant⟩ = (.ok (), ⟨pass.bunch, plant⟩) := htrack
    have hall : ∀ i e, r.elements[i]? = some e → r.at? (r.first + i) = some e := by
      intro i e he
      rw [Range.at?_add, he]
    have hsteps := run_visits_aboard number hrange hall hline
    have hend : r.first + r.elements.length = r.last + 1 := by
      have hpos := List.length_pos_iff.mpr hr
      rw [Range.last]
      omega
    rw [StepsLikeTrack, run_rideShared hb htracked]
    refine ⟨(s.aboard number (r.last + 1) pass).plant, ?_, ?_⟩
    · rw [Action.run_bind_of_ok hstart, hsteps, ← Range.course_eq_courseFrom hr, hend]
      rfl
    · exact apart_aboard hplant

end Station

end BeamOptics
