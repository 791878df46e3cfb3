import BeamOptics.Lattice.Range
import BeamOptics.Proofs.Action
import BeamOptics.Proofs.Lattice.Readings
import BeamOptics.Tracking.Pass

/-!
# Transport of bunches

What becomes of a bunch that passes elements is a function of the bunch, of the processes and of the strengths of
the elements it passes: readings that monitors take on the way have no part in it. A line can be passed in pieces,
and a failure carries the same index whichever piece it happens in.
-/

namespace BeamOptics

theorem BeamProcess.mem_of_mem_inOrder {ι : Type} {kindOf : ι → ProcessKind} {items : List ι} {item : ι}
    (h : item ∈ inOrder kindOf items) : item ∈ items := by
  obtain ⟨k, -, hk⟩ := List.mem_flatMap.mp h
  exact (List.mem_filter.mp hk).1

/-- A view of bunches that maps of particles and processes have no hand in. -/
structure Bunch.Steady {α τ : Type} [Scalar α] (view : Bunch α → τ) : Prop where
  mapParticles : ∀ b f, view (b.mapParticles f) = view b
  act : ∀ {p : BeamProcess α} {e : Element α} {ds : α} {b b' : Bunch α}, p.act e ds b = .ok b' → view b' = view b

/-- The maps of particles by which processes act. -/
inductive BeamProcess.Motion {α : Type} [Scalar α] : (PhaseVector α → PhaseVector α) → Prop
  | rest : Motion id
  | loss (loss : α → α) : Motion fun v => { v with dp := v.dp - loss v.dp }
  | rereference (loss : α → α) (scale : α) :
      Motion (Radiation.rescale scale ∘ fun v => { v with dp := v.dp - loss v.dp })
  | delay (delay : α) : Motion fun v => { v with ct := v.ct - delay }

/-- A process maps the particles of a bunch and sets its momentum. -/
theorem BeamProcess.exists_motion_of_act {α : Type} [Scalar α] {p : BeamProcess α} {e : Element α} {ds : α}
    {b b' : Bunch α} (h : p.act e ds b = .ok b') :
    ∃ f momentum, Motion f ∧ b' = ⟨momentum, b.charge, b.particles.map f⟩ := by
  have hunchanged : ∃ f momentum, Motion f ∧ b = ⟨momentum, b.charge, b.particles.map f⟩ :=
    ⟨id, b.momentum, .rest, by rw [List.map_id]⟩
  cases p with
  | radiation r =>
    rw [act, Radiation.act] at h
    split at h
    · obtain rfl := Except.ok.inj h
      exact hunchanged
    · cases hcube : Scalar.cube b.momentum with
      | error fault =>
        rw [hcube] at h
        cases h
      | ok cubed =>
        rw [hcube] at h
        obtain rfl := Except.ok.inj h
        split
        · exact ⟨_, _, .rereference (Radiation.loss cubed e.curvature ds) _,
            congrArg (Bunch.mk _ b.charge) List.map_map⟩
        · exact ⟨_, _, .loss (Radiation.loss cubed e.curvature ds), rfl⟩
  | ringDelta scale =>
    rw [act] at h
    split at h <;> obtain rfl := Except.ok.inj h
    · exact hunchanged
    · exact ⟨_, _, .delay (scale * ds), rfl⟩
  | finiteness detailed =>
    rw [act] at h
    split at h
    · obtain rfl := Except.ok.inj h
      exact hunchanged
    · cases h

theorem BeamProcess.exists_map_of_act {α : Type} [Scalar α] {p : BeamProcess α} {e : Element α} {ds : α}
    {b b' : Bunch α} (h : p.act e ds b = .ok b') : ∃ f momentum, b' = ⟨momentum, b.charge, b.particles.map f⟩ := by
  obtain ⟨f, momentum, -, hb'⟩ := exists_motion_of_act h
  exact ⟨f, momentum, hb'⟩

namespace Bunch

variable {α : Type} [Scalar α]

theorem steady_charge : Steady (charge : Bunch α → α) where
  mapParticles _ _ := rfl
  act h := by
    obtain ⟨f, momentum, rfl⟩ := BeamProcess.exists_map_of_act h
    rfl

theorem steady_size : Steady (size : Bunch α → Nat) where
  mapParticles := size_mapParticles
  act h := by
    obtain ⟨f, momentum, rfl⟩ := BeamProcess.exists_map_of_act h
    exact List.length_map f

end Bunch

namespace Pass

variable {α : Type} [Scalar α]

/-! ### One element -/

omit [Scalar α] in
theorem keeps_signals_onBunch {β : Type} (a : Action Fault (Bunch α) β) :
    (onBunch a).Keeps fun pass => pass.signals := fun _ => rfl

theorem keeps_apart_throughElement (processes : List (BeamProcess α)) {e : Element α} {tags : List Nat}
    (h : e.isMonitor = true → e.tag ∈ tags) :
    (throughElement processes e).Keeps fun pass => pass.signals.apart tags := by
  refine (Action.keeps_lift _).bind fun steps => ?_
  refine (Action.keeps_lift _).bind fun ds => ?_
  refine (Action.keeps_lift _).bind fun m => ?_
  refine (Action.keeps_ask _).bind fun strength => ?_
  refine ((keeps_signals_onBunch _).of_view fun _ _ h => by rw [h]).bind fun _ => ?_
  exact Action.keeps_modify fun pass => pass.signals.apart_observe h pass.bunch

theorem keeps_strengths_throughElement (processes : List (BeamProcess α)) (e : Element α) :
    (throughElement processes e).Keeps fun pass => pass.signals.strengths := by
  have hkeeps := keeps_apart_throughElement processes fun _ : e.isMonitor = true => List.mem_singleton_self e.tag
  exact hkeeps.of_view fun _ _ => Signals.strengths_of_apart

theorem reach_applyAll_cons (e : Element α) (ds : α) (p : BeamProcess α) (rest : List (BeamProcess α)) (b : Bunch α) :
    (applyAll e ds (p :: rest)).reach b = p.act e ds b >>= (applyAll e ds rest).reach := by
  change (Action.lift (p.act e ds b) >>= fun b => set b >>= fun _ => applyAll e ds rest).reach b = _
  rw [Action.reach_lift_bind]
  rfl

theorem keeps_applyAll {τ : Type} {view : Bunch α → τ} (h : Bunch.Steady view) (e : Element α) (ds : α)
    (processes : List (BeamProcess α)) : (applyAll e ds processes).Keeps view := by
  induction processes with
  | nil => exact Action.keeps_pure _
  | cons p rest ih =>
    apply Action.keeps_get_bind
    intro b
    cases hact : p.act e ds b with
    | error fault => rfl
    | ok b' => exact (ih b').trans (h.act hact)

theorem keeps_slices {τ : Type} {view : Bunch α → τ} (h : Bunch.Steady view) (processes : List (BeamProcess α))
    (e : Element α) (m : TransferMap α) (kick : PhaseVector α) (ds : α) (n : Nat) :
    (slices processes e m kick ds n).Keeps view := by
  induction n with
  | zero => exact Action.keeps_pure _
  | succ n ih =>
    refine Action.Keeps.bind ?_ fun _ => ih
    refine Action.Keeps.bind ?_ fun _ => keeps_applyAll h e ds processes
    exact Action.keeps_modify fun b => h.mapParticles b _

/-- The slices in which an element is passed: how many there are, how long they are, and the map over each. -/
structure Slicing (α : Type) where
  count : Nat
  ds : α
  map : TransferMap α

/-- The slices that processes ask for. -/
def slicing (processes : List (BeamProcess α)) (e : Element α) : Except Fault (Slicing α) := do
  let count ← stepCount processes e
  let ds ← ofMath (Scalar.overCount e.length count)
  let map ← ofMath (e.transferMap ds)
  pure ⟨count, ds, map⟩

/-- Passing the slices of an element, with all of the processes or with some. -/
def Slicing.pass (cut : Slicing α) (processes : List (BeamProcess α)) (signals : Signals α) (e : Element α) :
    Action Fault (Bunch α) Unit :=
  slices processes e cut.map (e.kick (signals.strength e) cut.ds) cut.ds cut.count

section

variable {processes : List (BeamProcess α)} {e : Element α} {cut : Slicing α} {b : Bunch α} {signals : Signals α}

theorem of_slicing (h : slicing processes e = .ok cut) :
    stepCount processes e = .ok cut.count ∧ Scalar.overCount e.length cut.count = .ok cut.ds ∧
      e.transferMap cut.ds = .ok cut.map := by
  obtain ⟨count, hcount, h⟩ := bind_eq_ok_iff.mp h
  obtain ⟨ds, hds, h⟩ := bind_eq_ok_iff.mp h
  obtain ⟨map, hmap, h⟩ := bind_eq_ok_iff.mp h
  obtain rfl := Except.ok.inj h
  exact ⟨hcount, mapError_eq_ok_iff.mp hds, mapError_eq_ok_iff.mp hmap⟩

theorem throughElement_eq (processes : List (BeamProcess α)) (e : Element α) :
    throughElement processes e = (do
      let cut ← Action.lift (slicing processes e)
      let signals ← Action.ask Pass.signals
      onBunch (cut.pass (BeamProcess.inOrder BeamProcess.kind processes) signals e)
      modify fun pass => { pass with signals := pass.signals.observe e pass.bunch }) := by
  simp only [throughElement, slicing, Action.lift_bind, Action.lift_pure, bind_assoc, pure_bind]
  rfl

/-- What an element observes is the bunch behind its slices, if it gets there. -/
theorem run_throughElement (h : slicing processes e = .ok cut) (b : Bunch α) (signals : Signals α) :
    (throughElement processes e).run ⟨b, signals⟩ =
      match (cut.pass (BeamProcess.inOrder BeamProcess.kind processes) signals e).run b with
      | (.ok _, b') => (.ok (), ⟨b', signals.observe e b'⟩)
      | (.error fault, b') => (.error fault, ⟨b', signals⟩) := by
  rw [throughElement_eq, Action.run_lift_bind_of_ok h, Action.run_bind_of_ok (Action.run_ask _ _), Action.run_bind,
    onBunch, Action.run_focus]
  rcases (cut.pass (BeamProcess.inOrder BeamProcess.kind processes) signals e).run b with ⟨fault | _, b'⟩ <;> rfl

theorem exists_of_run_throughElement {pass : Pass α}
    (h : (throughElement processes e).run ⟨b, signals⟩ = (.ok (), pass)) :
    ∃ cut, slicing processes e = .ok cut ∧
      (cut.pass (BeamProcess.inOrder BeamProcess.kind processes) signals e).run b = (.ok (), pass.bunch) ∧
      pass.signals = signals.observe e pass.bunch := by
  have hsliced := h
  rw [throughElement_eq] at hsliced
  obtain ⟨cut, hcut, -⟩ := Action.exists_of_run_lift_bind hsliced
  refine ⟨cut, hcut, ?_⟩
  rw [run_throughElement hcut] at h
  rcases hslices : (cut.pass (BeamProcess.inOrder BeamProcess.kind processes) signals e).run b with ⟨fault | _, b'⟩
  · rw [hslices] at h
    cases h
  · rw [hslices] at h
    cases h
    exact ⟨rfl, rfl⟩

end

/-- The bunch behind an element, or the fault that stops it there. -/
def through (processes : List (BeamProcess α)) (signals : Signals α) (e : Element α) (b : Bunch α) :
    Except Fault (Bunch α) :=
  Pass.bunch <$> (throughElement processes e).reach ⟨b, signals⟩

/-- The bunch behind an element that it passes in a given count of slices. -/
def inSlices (processes : List (BeamProcess α)) (signals : Signals α) (e : Element α) (n : Nat) (b : Bunch α) :
    Except Fault (Bunch α) := do
  let ds ← ofMath (Scalar.overCount e.length n)
  let m ← ofMath (e.transferMap ds)
  (slices (BeamProcess.inOrder BeamProcess.kind processes) e m (e.kick (signals.strength e) ds) ds n).reach b

theorem inSlices_eq_reach {e : Element α} {n : Nat} {ds : α} {m : TransferMap α}
    (hds : Scalar.overCount e.length n = .ok ds) (hm : e.transferMap ds = .ok m) (processes : List (BeamProcess α))
    (signals : Signals α) :
    inSlices processes signals e n = (slices (BeamProcess.inOrder BeamProcess.kind processes) e m
      (e.kick (signals.strength e) ds) ds n).reach := by
  funext b
  rw [inSlices, hds]
  change (ofMath (e.transferMap ds) >>= _) = _
  rw [hm]
  rfl

/-- Of the signals only the strength of the element itself matters. -/
theorem through_eq (processes : List (BeamProcess α)) (signals : Signals α) (e : Element α) (b : Bunch α) :
    through processes signals e b = stepCount processes e >>= fun n => inSlices processes signals e n b := by
  unfold through throughElement inSlices
  simp only [Action.reach_lift_bind, Action.reach_ask_bind, Action.reach_bind, onBunch, Action.reach_focus,
    Action.reach_modify, map_bind, bind_map_left]
  refine bind_congr fun steps => bind_congr fun ds => bind_congr fun m => ?_
  cases (slices (BeamProcess.inOrder BeamProcess.kind processes) e m (e.kick (signals.strength e) ds) ds
    steps).reach b <;> rfl

theorem through_eq_inSlices {processes : List (BeamProcess α)} {e : Element α} {n : Nat}
    (h : stepCount processes e = .ok n) (signals : Signals α) :
    through processes signals e = inSlices processes signals e n := by
  funext b
  rw [through_eq, h]
  rfl

/-- A bunch that gets behind an element has passed all its slices. -/
theorem exists_of_through {processes : List (BeamProcess α)} {signals : Signals α} {e : Element α} {b b' : Bunch α}
    (h : through processes signals e b = .ok b') :
    ∃ cut, slicing processes e = .ok cut ∧
      (cut.pass (BeamProcess.inOrder BeamProcess.kind processes) signals e).reach b = .ok b' := by
  obtain ⟨pass, hreach, rfl⟩ := map_eq_ok_iff.mp h
  obtain ⟨_, hrun⟩ := Action.exists_of_reach hreach
  obtain ⟨cut, hcut, hpass, -⟩ := exists_of_run_throughElement hrun
  exact ⟨cut, hcut, Action.reach_of_ok hpass⟩

theorem view_through {τ : Type} {view : Bunch α → τ} (hview : Bunch.Steady view) {processes : List (BeamProcess α)}
    {signals : Signals α} {e : Element α} {b b' : Bunch α} (h : through processes signals e b = .ok b') :
    view b' = view b := by
  obtain ⟨cut, -, hpass⟩ := exists_of_through h
  exact (keeps_slices hview _ e cut.map _ cut.ds cut.count).of_reach hpass

theorem through_congr (processes : List (BeamProcess α)) {signals signals' : Signals α} {e : Element α}
    (h : signals'.strength e = signals.strength e) : through processes signals' e = through processes signals e := by
  funext b
  rw [through_eq, through_eq]
  unfold inSlices
  rw [h]

/-! ### A line -/

theorem keeps_apart_throughLine (processes : List (BeamProcess α)) (index : Nat) {elements : List (Element α)}
    {tags : List Nat} (h : ∀ e ∈ elements, e.isMonitor = true → e.tag ∈ tags) :
    (throughLine processes index elements).Keeps fun pass => pass.signals.apart tags := by
  induction elements generalizing index with
  | nil => exact Action.keeps_pure _
  | cons e rest ih =>
    refine ((keeps_apart_throughElement processes (h e List.mem_cons_self)).mapError _).bind fun _ => ?_
    exact ih (index + 1) fun f hf => h f (List.mem_cons_of_mem e hf)

/-- The bunch behind a line whose first element has the given index, or the fault that stops it and the index of
the element where it does. -/
def along (processes : List (BeamProcess α)) (signals : Signals α) :
    Nat → List (Element α) → Bunch α → Except (Nat × Fault) (Bunch α)
  | _, [], b => .ok b
  | index, e :: rest, b => do
    let b ← (through processes signals e b).mapError fun fault => (index, fault)
    along processes signals (index + 1) rest b

theorem view_along {τ : Type} {view : Bunch α → τ} (hview : Bunch.Steady view) {processes : List (BeamProcess α)}
    {signals : Signals α} {index : Nat} {elements : List (Element α)} {b b' : Bunch α}
    (h : along processes signals index elements b = .ok b') : view b' = view b := by
  induction elements generalizing index b with
  | nil =>
    obtain rfl := Except.ok.inj h
    rfl
  | cons e rest ih =>
    rw [along] at h
    obtain ⟨b₁, hthrough, hrest⟩ := bind_eq_ok_iff.mp h
    exact (ih hrest).trans (view_through hview (mapError_eq_ok_iff.mp hthrough))

theorem along_congr {processes processes' : List (BeamProcess α)} {signals signals' : Signals α}
    {elements : List (Element α)}
    (h : ∀ e ∈ elements, through processes' signals' e = through processes signals e) (index : Nat) :
    along processes' signals' index elements = along processes signals index elements := by
  induction elements generalizing index with
  | nil => rfl
  | cons e rest ih =>
    funext b
    rw [along, along, h e List.mem_cons_self, ih fun f hf => h f (List.mem_cons_of_mem e hf)]

theorem along_congr_strengths (processes : List (BeamProcess α)) {signals signals' : Signals α}
    (h : signals'.strengths = signals.strengths) (index : Nat) (elements : List (Element α)) :
    along processes signals' index elements = along processes signals index elements :=
  along_congr (fun e _ => through_congr processes (by rw [Signals.strength, h, Signals.strength])) index

theorem along_append (processes : List (BeamProcess α)) (signals : Signals α) (index : Nat)
    (front back : List (Element α)) (b : Bunch α) :
    along processes signals index (front ++ back) b =
      along processes signals index front b >>= along processes signals (index + front.length) back := by
  induction front generalizing index b with
  | nil => rfl
  | cons e rest ih =>
    have hindex : index + (e :: rest).length = index + 1 + rest.length := by
      simp only [List.length_cons]
      omega
    simp only [List.cons_append, along, hindex, ih, bind_assoc]

/-- Passing a line leads where `along` says, whatever monitors read on the way. -/
theorem reach_throughLine (processes : List (BeamProcess α)) (signals : Signals α) (index : Nat)
    (elements : List (Element α)) (b : Bunch α) :
    Pass.bunch <$> (throughLine processes index elements).reach ⟨b, signals⟩ =
      along processes signals index elements b := by
  induction elements generalizing index b signals with
  | nil => rfl
  | cons e rest ih =>
    rw [throughLine, along, Action.reach_bind, Action.reach_mapError, map_bind, through]
    cases hreach : (throughElement processes e).reach ⟨b, signals⟩ with
    | error fault => rfl
    | ok pass =>
      have hstrengths := (keeps_strengths_throughElement processes e).of_reach hreach
      have hrest := ih pass.signals (index + 1) pass.bunch
      rw [along_congr_strengths processes hstrengths] at hrest
      exact hrest

end Pass

/-! ### A range -/

namespace Range

variable {α : Type} [Scalar α]

/-- How a fault on the way comes out of tracking: a fault of the simulation as it is, any other with the index of
the element where it happened. -/
def surface (failure : Nat × Fault) : Fault :=
  if failure.2.isSimulation then failure.2 else .failedAt failure.1 failure.2

/-- The bunch at the end of a range, or the fault that tracking it through the range ends in. -/
def transport (processes : List (BeamProcess α)) (signals : Signals α) (r : Range α) (b : Bunch α) :
    Except Fault (Bunch α) :=
  (Pass.along processes signals r.first r.elements b).mapError surface

theorem view_transport {τ : Type} {view : Bunch α → τ} (hview : Bunch.Steady view) {processes : List (BeamProcess α)}
    {signals : Signals α} {r : Range α} {b b' : Bunch α} (h : r.transport processes signals b = .ok b') :
    view b' = view b :=
  Pass.view_along hview (mapError_eq_ok_iff.mp h)

theorem transport_congr {processes processes' : List (BeamProcess α)} {signals signals' : Signals α} {r : Range α}
    (h : ∀ e ∈ r.elements, Pass.through processes' signals' e = Pass.through processes signals e) :
    r.transport processes' signals' = r.transport processes signals := by
  funext b
  rw [transport, transport, Pass.along_congr h]

theorem transport_congr_strengths (processes : List (BeamProcess α)) {signals signals' : Signals α}
    (h : signals'.strengths = signals.strengths) (r : Range α) :
    r.transport processes signals' = r.transport processes signals := by
  funext b
  rw [transport, transport, Pass.along_congr_strengths processes h]

theorem transport_append (processes : List (BeamProcess α)) (signals : Signals α) (first : Nat)
    (front back : List (Element α)) (b : Bunch α) :
    (⟨first, front ++ back⟩ : Range α).transport processes signals b =
      (⟨first, front⟩ : Range α).transport processes signals b >>=
        (⟨first + front.length, back⟩ : Range α).transport processes signals := by
  unfold transport
  rw [Pass.along_append]
  cases Pass.along processes signals first front b <;> rfl

end Range

end BeamOptics
