import BeamOptics.Proofs.Accelerator.Legs
import BeamOptics.Proofs.ClosedOrbit.Frame
import BeamOptics.Proofs.Machine.Sweep
import BeamOptics.Proofs.Tracking.Outings

/-!
# Outings in operation

A call that tracks a state makes an outing through the gap, if there is one, and an outing through the segment; a search
makes one outing for each of its steps. The first outing that fails is the last of its call. So the record of an
observer is an account of the outings of all calls, in the order in which the ranges were tracked.
-/

namespace BeamOptics

namespace Outing

variable {α : Type}

/-- The outings of work that goes for some ranges, one after the other. It stops where an outing fails, and may stop for
another reason as well; work that returns has come to the end. -/
structure Follow (legs : List Segment) (outings : List (Outing α)) (returned : Prop) : Prop where
  ranges : outings.map range <+: legs
  completed : ∀ o ∈ outings.dropLast, o.Completed
  all : returned → outings.map range = legs ∧ ∀ o ∈ outings, o.Completed

namespace Follow

variable {legs legs' : List Segment} {outings outings' : List (Outing α)} {returned returned' : Prop}

theorem none (returned : Prop) : Follow [] ([] : List (Outing α)) returned :=
  ⟨List.prefix_rfl, nofun, fun _ => ⟨rfl, nofun⟩⟩

theorem congr (h : Follow legs outings returned) (hreturned : returned' → returned) : Follow legs outings returned' :=
  ⟨h.ranges, h.completed, fun h' => h.all (hreturned h')⟩

theorem of_not_returned (h : Follow legs outings False) (legs' : List Segment) (hreturned : ¬returned') :
    Follow (legs ++ legs') outings returned' :=
  ⟨h.ranges.trans (List.prefix_append legs legs'), h.completed, fun h' => absurd h' hreturned⟩

theorem append (h : Follow legs outings True) (h' : Follow legs' outings' returned') :
    Follow (legs ++ legs') (outings ++ outings') returned' := by
  obtain ⟨hranges, hall⟩ := h.all trivial
  refine ⟨?_, ?_, fun hreturned => ?_⟩
  · rw [List.map_append, hranges]
    exact (List.prefix_append_right_inj legs).mpr h'.ranges
  · intro o ho
    by_cases hempty : outings' = []
    · rw [hempty, List.append_nil] at ho
      exact h.completed o ho
    · rw [List.dropLast_append_of_ne_nil hempty] at ho
      rcases List.mem_append.mp ho with ho | ho
      · exact hall o ho
      · exact h'.completed o ho
  · obtain ⟨hranges', hall'⟩ := h'.all hreturned
    refine ⟨by rw [List.map_append, hranges, hranges'], fun o ho => ?_⟩
    rcases List.mem_append.mp ho with ho | ho
    · exact hall o ho
    · exact hall' o ho

theorem single {o : Outing α} {leg : Segment} (hrange : o.range = leg) (h : returned → o.Completed) :
    Follow [leg] [o] returned := by
  subst hrange
  refine ⟨List.prefix_rfl, nofun, fun hreturned => ⟨rfl, fun o' ho' => ?_⟩⟩
  rw [List.mem_singleton.mp ho']
  exact h hreturned

end Follow

end Outing

namespace Station

variable {α : Type}

/-- What a stretch of work has told the observers of a tracker, which stay the same. -/
structure Told (s : Station α) (outings : List (Outing α)) (s' : Station α) : Prop where
  observers : s'.tracker.observers = s.tracker.observers
  received : ∀ k, s'.plant.received k = s.plant.received k ++
    outings.flatMap fun o => o.account s.tracker.observers k

/-- Who is told, and what is on record. -/
def ledger (s : Station α) : List Observer × Table Nat (List (Event α)) := (s.tracker.observers, s.plant.records)

namespace Told

variable {s s₁ s₂ : Station α} {outings outings' : List (Outing α)}

theorem of_ledger (h : s₁.ledger = s.ledger) : s.Told [] s₁ := by
  obtain ⟨hobservers, hrecords⟩ := Prod.ext_iff.mp h
  refine ⟨hobservers, fun k => ?_⟩
  rw [Plant.received_of_records hrecords, List.flatMap_nil, List.append_nil]

theorem trans (h : s.Told outings s₁) (h' : s₁.Told outings' s₂) : s.Told (outings ++ outings') s₂ := by
  refine ⟨h'.observers.trans h.observers, fun k => ?_⟩
  rw [h'.received, h.received, h.observers, List.append_assoc, List.flatMap_append]

theorem congr {s' s₁' : Station α} (h : s.Told outings s₁) (hs : s.ledger = s'.ledger) (hs₁ : s₁'.ledger = s₁.ledger) :
    s'.Told outings s₁' := by
  have hall := ((of_ledger hs).trans h).trans (of_ledger hs₁)
  rwa [List.nil_append, List.append_nil] at hall

end Told

end Station

/-- Work that makes outings for some ranges, as the tracker at its place sees it. -/
def Action.Tours {α σ β : Type} (view : σ → Station α) (a : Action Fault σ β) (legs : List Segment) (s : σ) : Prop :=
  ∃ outings, (view s).Told outings (view (a.run s).2) ∧ Outing.Follow legs outings (∃ b, (a.run s).1 = .ok b)

namespace Action

variable {α σ β γ : Type} {view : σ → Station α} {legs legs' : List Segment} {s : σ}

theorem Keeps.tours {a : Action Fault σ β} (ha : a.Keeps fun s => (view s).ledger) (s : σ) : a.Tours view [] s :=
  ⟨[], .of_ledger (ha s), .none _⟩

theorem tours_throw (fault : Fault) (legs : List Segment) (s : σ) :
    (throw fault : Action Fault σ β).Tours view legs s :=
  ⟨[], .of_ledger rfl, ⟨List.nil_prefix, nofun, fun ⟨_, hb⟩ => nomatch hb⟩⟩

/-- What stops half-way has come to no range behind. -/
theorem Tours.bind {a : Action Fault σ β} {f : β → Action Fault σ γ} (ha : a.Tours view legs s)
    (hf : ∀ b s', a.run s = (.ok b, s') → (f b).Tours view legs' s') : (a >>= f).Tours view (legs ++ legs') s := by
  obtain ⟨outings, htold, hfollow⟩ := ha
  rcases hrun : a.run s with ⟨fault | b, s₁⟩ <;> rw [hrun] at htold hfollow
  · refine ⟨outings, ?_, ?_⟩ <;> rw [run_bind_of_error hrun]
    · exact htold
    · exact (hfollow.congr False.elim).of_not_returned legs' fun ⟨_, hb⟩ => nomatch hb
  · obtain ⟨outings', htold', hfollow'⟩ := hf b s₁ hrun
    refine ⟨outings ++ outings', ?_, ?_⟩ <;> rw [run_bind_of_ok hrun]
    · exact htold.trans htold'
    · exact (hfollow.congr fun _ => ⟨b, rfl⟩).append hfollow'

theorem Tours.keeps_bind {a : Action Fault σ β} {f : β → Action Fault σ γ} (ha : a.Keeps fun s => (view s).ledger)
    (hf : ∀ b s', a.run s = (.ok b, s') → (f b).Tours view legs s') : (a >>= f).Tours view legs s :=
  (ha.tours s).bind hf

theorem Tours.bind_keeps {a : Action Fault σ β} {f : β → Action Fault σ γ} (ha : a.Tours view legs s)
    (hf : ∀ b, (f b).Keeps fun s => (view s).ledger) : (a >>= f).Tours view legs s := by
  have hall := ha.bind fun b s' _ => (hf b).tours s'
  rwa [List.append_nil] at hall

theorem tours_get_bind {f : σ → Action Fault σ β} (hf : (f s).Tours view legs s) : (get >>= f).Tours view legs s := hf

theorem tours_lift_bind {r : Except Fault β} {f : β → Action Fault σ γ}
    (hf : ∀ b, r = .ok b → (f b).Tours view legs s) : (lift r >>= f).Tours view legs s := by
  cases r with
  | error fault => exact tours_throw fault legs s
  | ok b => exact hf b rfl

end Action

namespace Station

variable {α : Type}

theorem keeps_ledger_note (n : TrackerNote) : (note n : Action Fault (Station α) Unit).Keeps ledger := by
  intro s
  exact Prod.ext rfl (Plant.records_of_unlogged (s.plant.unlogged_note _))

theorem keeps_ledger_onPlant {f : Plant α → Plant α} (h : ∀ p, (f p).records = p.records) :
    (onPlant (Action.update f)).Keeps ledger := fun s => Prod.ext rfl (h s.plant)

theorem keeps_ledger_setRange (r : Range α) : (setRange r).Keeps ledger :=
  Action.Keeps.bind (fun _ => rfl) fun _ => keeps_ledger_note _

theorem keeps_ledger_setInitial (initial : InitialBunch α) : (setInitial initial).Keeps ledger := fun _ => rfl

variable [Scalar α]

/-- One tracking is one outing. -/
theorem tours_trackBunch {s : Station α} {r : Range α} (hrange : s.tracker.range = some r) (b : Bunch α) :
    Action.Tours id (do
      let (result, b) ← trackBunch b
      Action.lift result
      pure b : Action Fault (Station α) (Bunch α)) [r.span] s := by
  have hrun : (do
      let (result, b) ← trackBunch b
      Action.lift result
      pure b : Action Fault (Station α) (Bunch α)).run s =
      (((Ride.track s.tracker).run ⟨b, s.plant⟩).1.map fun _ => ((Ride.track s.tracker).run ⟨b, s.plant⟩).2.bunch,
        { s with plant := ((Ride.track s.tracker).run ⟨b, s.plant⟩).2.plant }) := by
    rw [Action.run_bind_of_ok (run_trackBunch s b)]
    cases ((Ride.track s.tracker).run ⟨b, s.plant⟩).1 <;> rfl
  have hbracketed := Ride.bracketed_track hrange b s.plant
  unfold Action.Tours
  rw [hrun]
  generalize (Ride.track s.tracker).run ⟨b, s.plant⟩ = ended at hbracketed ⊢
  obtain ⟨result, ride⟩ := ended
  obtain ⟨o, hspan, hcompleted, hreceived⟩ := hbracketed.exists_outing
  refine ⟨[o], ⟨rfl, fun k => ?_⟩, .single hspan fun hreturned => hcompleted ?_⟩
  · rw [List.flatMap_singleton]
    exact hreceived k
  · obtain ⟨_, hb⟩ := hreturned
    obtain ⟨_, hresult, -⟩ := map_eq_ok_iff.mp hb
    exact hresult

theorem tours_trackCopy {s : Station α} {r : Range α} (hrange : s.tracker.range = some r) :
    (trackCopy : Action Fault (Station α) (Bunch α)).Tours id [r.span] s := by
  have hload (load : Load α) : Action.Tours id (do
      let load ← Action.lift load.copy
      let b ← Action.lift load.bunch
      let (result, b) ← trackBunch b
      Action.lift result
      pure b : Action Fault (Station α) (Bunch α)) [r.span] s :=
    Action.tours_lift_bind fun load _ => Action.tours_lift_bind fun b _ => tours_trackBunch hrange b
  apply Action.tours_get_bind
  cases s.tracker.initial with
  | none => exact Action.tours_throw _ _ s
  | some initial =>
    cases initial with
    | own load => exact hload load
    | shared number =>
      dsimp only
      cases s.plant.bunches.get? number with
      | none => exact Action.tours_throw _ _ s
      | some load => exact hload load

end Station

namespace OrbitSearch

variable {α : Type} [Scalar α]

theorem tours_advance (decompose : Decomposer α) (c : OrbitConfig α) (momentum : α) {s : Station α} {r : Range α}
    (hrange : s.tracker.range = some r) (p : Progress α) :
    (advance decompose c momentum p).Tours id [r.span] s := by
  have hturn : turn c momentum p.orbit = (do
      let (result, b) ← Station.trackBunch
        ⟨momentum, 1, Newton.probe (Newton.coordinates c.transverseOnly) c.delta p.orbit⟩
      Action.lift result
      pure b : Action Fault (Station α) (Bunch α)) >>= fun b => pure b.particles := by
    simp only [turn, bind_assoc, pure_bind]
  rw [advance, hturn, bind_assoc]
  refine (Station.tours_trackBunch hrange _).bind_keeps fun b => ?_
  refine (Action.keeps_pure _).bind fun images => (Action.keeps_lift _).bind fun step => ?_
  refine Action.Keeps.bind ?_ fun _ => Action.keeps_pure _
  exact Station.keeps_ledger_onPlant fun plant => Plant.records_of_unlogged (plant.unlogged_note _)

theorem steps_of_advance {decompose : Decomposer α} {c : OrbitConfig α} {momentum : α} {p q : Progress α}
    {s s' : Station α} (h : (advance decompose c momentum p).run s = (.ok q, s')) : q.steps = p.steps + 1 := by
  obtain ⟨images, s₁, -, h⟩ := Action.exists_of_run_bind h
  obtain ⟨step, -, h⟩ := Action.exists_of_run_lift_bind h
  obtain ⟨_, s₂, -, h⟩ := Action.exists_of_run_bind h
  obtain rfl := Except.ok.inj (congrArg Prod.fst h)
  rfl

/-- Every step makes one outing through the range. -/
theorem exists_tours_iterate (decompose : Decomposer α) (c : OrbitConfig α) (momentum : α) {r : Range α} (budget : Nat)
    {s : Station α} (hrange : s.tracker.range = some r) (p : Progress α) :
    ∃ n ≤ budget, (iterate decompose c momentum budget p).Tours id (List.replicate n r.span) s ∧
      ∀ q, ((iterate decompose c momentum budget p).run s).1 = .ok q → q.steps = p.steps + n := by
  induction budget generalizing s p with
  | zero =>
    refine ⟨0, Nat.le_refl 0, (Action.keeps_pure p).tours s, fun q hq => ?_⟩
    obtain rfl := Except.ok.inj hq
    rfl
  | succ budget ih =>
    unfold iterate
    by_cases habove : above c.tolerance p.residual = true
    · rw [if_pos habove]
      have hadvance := tours_advance decompose c momentum hrange p
      rcases hrun : (advance decompose c momentum p).run s with ⟨fault | p₁, s₁⟩
      · refine ⟨1, Nat.succ_le_succ (Nat.zero_le budget), ?_, fun q hq => ?_⟩
        · rw [List.replicate_one, ← List.append_nil [r.span]]
          refine hadvance.bind fun b s' h => ?_
          rw [hrun] at h
          cases h
        · rw [Action.run_bind_of_error hrun] at hq
          cases hq
      · have hrange₁ : s₁.tracker.range = some r := by
          rw [Station.tracker_of_surroundings ((keeps_surroundings_advance decompose c momentum p).of_run hrun), hrange]
        obtain ⟨n, hn, htours, hsteps⟩ := ih hrange₁ p₁
        refine ⟨n + 1, Nat.succ_le_succ hn, ?_, fun q hq => ?_⟩
        · rw [List.replicate_succ, ← List.singleton_append]
          refine hadvance.bind fun b s' h => ?_
          rw [hrun] at h
          cases h
          exact htours
        · rw [Action.run_bind_of_ok hrun] at hq
          rw [hsteps q hq, steps_of_advance hrun]
          omega
    · rw [if_neg habove]
      refine ⟨0, Nat.zero_le _, (Action.keeps_pure p).tours s, fun q hq => ?_⟩
      obtain rfl := Except.ok.inj hq
      rfl

omit [Scalar α] in
theorem ledger_equipped (processes : List (BeamProcess α)) (s : Station α) :
    (equipped processes s).ledger = s.ledger := by
  obtain ⟨hplant, htracker⟩ := equipped_eq processes s
  exact Prod.ext (congrArg Tracker.observers htracker :) (Plant.records_of_unlogged hplant :)

omit [Scalar α] in
theorem tours_withProcesses {β : Type} {processes : List (BeamProcess α)} {body : Action Fault (Station α) β}
    {legs : List Segment} {s : Station α} (hbody : body.Tours id legs (equipped processes s)) :
    (withProcesses processes body).Tours id legs s := by
  obtain ⟨outings, htold, hfollow⟩ := hbody
  obtain ⟨s', hrun, hplant, htracker⟩ := run_withProcesses processes body s
  refine ⟨outings, ?_, ?_⟩ <;> rw [hrun]
  · exact htold.congr (ledger_equipped processes s)
      (Prod.ext (congrArg Tracker.observers htracker :) (Plant.records_of_unlogged hplant :))
  · exact hfollow

theorem iterations_of_conclude {c : OrbitConfig α} {p : Progress α} {result : OrbitResult α}
    (h : conclude c p = .ok result) : result.iterations = p.steps := by
  unfold conclude at h
  dsimp only at h
  split at h
  · obtain rfl := Except.ok.inj h
    rfl
  · cases h

/-- A search makes one outing for each of its steps. -/
theorem exists_tours_find (decompose : Decomposer α) (c : OrbitConfig α) (momentum : α) (r : Range α)
    (guess : PhaseVector α) (s : Station α) :
    ∃ n ≤ budget c, (find decompose c momentum r guess).Tours id (List.replicate n r.span) s ∧
      ∀ result, ((find decompose c momentum r guess).run s).1 = .ok result → result.iterations = n := by
  obtain ⟨s₁, hset, hrange⟩ : ∃ s₁, (Station.setRange r).run s = (.ok (), s₁) ∧ s₁.tracker.range = some r :=
    ⟨_, rfl, rfl⟩
  have hequipped : (equipped (transients c) s₁).tracker.range = some r := by
    rw [(equipped_eq (transients c) s₁).2]
    exact hrange
  obtain ⟨n, hn, htours, hsteps⟩ := exists_tours_iterate decompose c momentum (budget c) hequipped
    { orbit := guess, correction := 0 }
  refine ⟨n, hn, ?_, fun result hresult => ?_⟩
  · refine Action.Tours.keeps_bind (Station.keeps_ledger_setRange r) fun _ s' h => ?_
    rw [hset] at h
    cases h
    refine (tours_withProcesses htours).bind_keeps fun p => ?_
    refine (Action.keeps_lift _).bind fun result => Action.Keeps.bind ?_ fun _ => Action.keeps_pure _
    exact Station.keeps_ledger_onPlant fun plant => Plant.records_of_unlogged (plant.unlogged_note _)
  · have hrun := Action.run_eq_of_fst hresult
    rw [find, Action.run_bind_of_ok hset] at hrun
    obtain ⟨p, s₂, hiterate, hrun⟩ := Action.exists_of_run_bind hrun
    obtain ⟨concluded, hconclude, hrun⟩ := Action.exists_of_run_lift_bind hrun
    obtain ⟨_, s₃, -, hrun⟩ := Action.exists_of_run_bind hrun
    obtain rfl := Except.ok.inj (congrArg Prod.fst hrun)
    have hended := congrArg Prod.fst hiterate
    rw [outcome_withProcesses] at hended
    rw [iterations_of_conclude hconclude, hsteps p hended, Nat.zero_add]

end OrbitSearch

namespace Rig

variable {α : Type}

/-- The ranges that a call goes for: the gap, if there is one, and then the last leg. Without a segment or an entry
there are none. -/
def goals (rig : Rig α) (m : Model α) (state : Datum) (argument : SegmentArgument) : List Segment :=
  match rig.accelerator.resolve m argument, rig.accelerator.entry state with
  | .ok s, .ok (_, entry) => (rig.legs m entry s).map Range.span
  | _, _ => []

theorem keeps_ledger_note (n : AcceleratorNote α) : (note n).Keeps fun rig => rig.station.ledger := by
  intro rig
  exact Prod.ext rfl (Plant.records_of_unlogged (rig.plant.unlogged_note _))

theorem keeps_ledger_putEntry (n : Nat) (entry : CachedBunch α) :
    (putEntry n entry).Keeps fun rig => rig.station.ledger :=
  fun _ => rfl

variable [Scalar α]

theorem eq_base_of_rewind {rig rig' : Rig α} {n : Nat} {entry entry' : CachedBunch α} {state : String} {s : Segment}
    (h : (rewind n entry state s).run rig = (.ok entry', rig')) : entry' = entry.base s.first := by
  have hpristine {rig₁ : Rig α}
      (h : (do
        let initial ← Action.lift entry.initial.copy
        let entry := { entry.rewound with bunch := initial }
        putEntry n entry
        pure entry : Action Fault (Rig α) (CachedBunch α)).run rig₁ = (.ok entry', rig')) :
      entry' = .fresh entry.initial := by
    obtain ⟨initial, hcopy, h⟩ := Action.exists_of_run_lift_bind h
    obtain ⟨_, rig₂, -, h⟩ := Action.exists_of_run_bind h
    obtain ⟨-, rfl⟩ := Bunch.copy_eq_ok_iff.mp hcopy
    exact (Except.ok.inj (congrArg Prod.fst h)).symm
  unfold rewind at h
  unfold CachedBunch.base
  by_cases hpast : entry.isPast s.first
  · rw [if_pos hpast] at h ⊢
    dsimp only at h
    split at h
    · obtain ⟨_, rig₁, -, h⟩ := Action.exists_of_run_bind h
      exact hpristine h
    · exact hpristine h
  · rw [if_neg hpast] at h ⊢
    exact (Except.ok.inj (congrArg Prod.fst h)).symm

theorem tours_trackFrom (r : Range α) (b : Bunch α) (rig : Rig α) : (trackFrom r b).Tours station [r.span] rig := by
  have hstation : Action.Tours id (do
      Station.setRange r
      Station.setInitial (.own (.table b))
      Station.trackCopy : Action Fault (Station α) (Bunch α)) [r.span] rig.station := by
    refine Action.Tours.keeps_bind (Station.keeps_ledger_setRange r) fun _ s₁ h₁ => ?_
    refine Action.Tours.keeps_bind (Station.keeps_ledger_setInitial _) fun _ s₂ h₂ => ?_
    apply Station.tours_trackCopy
    cases h₁
    cases h₂
    rfl
  exact hstation

theorem tours_advance (m : Model α) (n : Nat) (entry : CachedBunch α) (state : String) (s : Segment) (rig : Rig α) :
    (advance m n entry state s).Tours station ((gapLegs m entry s.first).map Range.span) rig := by
  have hnext := entry.next_base_le s.first
  refine Action.Tours.keeps_bind (keeps_rewind keeps_ledger_note keeps_ledger_putEntry n entry state s)
    fun entry' rig₁ hrewind => ?_
  obtain rfl := eq_base_of_rewind hrewind
  unfold gapLegs
  by_cases hat : (entry.base s.first).isAt s.first
  · rw [if_pos hat, if_pos (by simp [hat])]
    exact (Action.keeps_pure _).tours rig₁
  · have hne : (entry.base s.first).next ≠ s.first := by simpa [CachedBunch.isAt] using hat
    have horigin : s.startsAtOrigin = false := by
      rw [Segment.startsAtOrigin, beq_eq_false_iff_ne]
      omega
    have hcast : (s.first : Int) - 1 = ((s.first - 1 : Nat) : Int) := by omega
    rw [if_neg hat, if_neg (by simp [hat, horigin]), hcast]
    refine Action.Tours.keeps_bind (keeps_ledger_note _) fun _ rig₂ _ => ?_
    refine Action.tours_lift_bind fun gap hgap => ?_
    obtain rfl := Model.eq_part_of_subrange hgap
    rw [Nat.sub_add_cancel (by omega)]
    refine (tours_trackFrom _ _ rig₂).bind_keeps fun b => ?_
    exact (keeps_ledger_putEntry n _).bind fun _ => Action.keeps_pure _

/-- A call that tracks a state makes an outing for each of its legs. -/
theorem tours_trackState (m : Model α) (state : Datum) (argument : SegmentArgument) (rig : Rig α) :
    (trackState m state argument).Tours station (rig.goals m state argument) rig := by
  have hfinish (first : Nat) (s : Segment) (b : Bunch α) (rig₁ : Rig α) : Action.Tours station (do
      let r ← Action.lift (m.subrange first s.last)
      let b ← trackFrom r b
      note (.finalMomentum b.momentum)
      pure b : Action Fault (Rig α) (Bunch α)) [(m.part first (s.last + 1)).span] rig₁ := by
    refine Action.tours_lift_bind fun r hr => ?_
    obtain rfl := Model.eq_part_of_subrange hr
    refine (tours_trackFrom _ _ rig₁).bind_keeps fun b => ?_
    exact (keeps_ledger_note _).bind fun _ => Action.keeps_pure _
  refine Action.Tours.keeps_bind (Action.keeps_ask _) fun a rig₁ h => ?_
  cases h
  refine Action.tours_lift_bind fun s hs => ?_
  refine Action.tours_lift_bind fun found hfound => ?_
  obtain ⟨n, entry⟩ := found
  have hgoals : rig.goals m state argument = (rig.legs m entry s).map Range.span := by
    rw [goals, hs, hfound]
  rw [hgoals, legs, lastLeg]
  refine Action.Tours.keeps_bind (keeps_ledger_note _) fun _ rig₂ _ => ?_
  dsimp only
  by_cases hincremental : rig.accelerator.incremental
  · rw [if_pos hincremental, if_pos hincremental, if_pos hincremental, List.map_append]
    exact (tours_advance m n entry state.display s rig₂).bind fun entry' rig₃ _ => hfinish _ s _ rig₃
  · rw [if_neg hincremental, if_neg hincremental, if_neg hincremental]
    exact hfinish 0 s entry.initial rig₂

end Rig

/-! ### Calls -/

/-- A call for tracking: of a state through a segment of a line, or around a turn in search of the closed orbit. -/
inductive TrackingCall (α : Type) where
  | trackState (line : Model α) (state : Datum) (argument : SegmentArgument)
  | findOrbit (decompose : Decomposer α) (config : OrbitConfig α) (momentum : α) (line : Model α)
    (argument : SegmentArgument) (guess : PhaseVector α)

namespace TrackingCall

variable {α : Type} [Scalar α]

def run : TrackingCall α → Action Fault (Rig α) Unit
  | trackState line state argument => do
    let _ ← Rig.trackState line state argument
  | findOrbit decompose config momentum line argument guess => do
    let r ← Action.lift (argument.range line)
    let _ ← Rig.onStation (OrbitSearch.find decompose config momentum r guess)

/-- The ranges that a call goes for at a rig. -/
inductive Goals (rig : Rig α) : TrackingCall α → List Segment → Prop
  | legs (line : Model α) (state : Datum) (argument : SegmentArgument) :
    Goals rig (.trackState line state argument) (rig.goals line state argument)
  | nowhere {decompose : Decomposer α} {config : OrbitConfig α} {momentum : α} {line : Model α}
    {argument : SegmentArgument} {guess : PhaseVector α} {fault : Fault} (h : argument.range line = .error fault) :
    Goals rig (.findOrbit decompose config momentum line argument guess) []
  /-- As many turns as the search makes steps. -/
  | turns {decompose : Decomposer α} {config : OrbitConfig α} {momentum : α} {line : Model α}
    {argument : SegmentArgument} {guess : PhaseVector α} {r : Range α} {n : Nat} (h : argument.range line = .ok r)
    (hn : n ≤ OrbitSearch.budget config)
    (hsteps : ∀ result, ((OrbitSearch.find decompose config momentum r guess).run rig.station).1 = .ok result →
      result.iterations = n) :
    Goals rig (.findOrbit decompose config momentum line argument guess) (List.replicate n r.span)

theorem exists_goals (c : TrackingCall α) (rig : Rig α) :
    ∃ legs, Goals rig c legs ∧ c.run.Tours Rig.station legs rig := by
  cases c with
  | trackState line state argument =>
    refine ⟨_, .legs line state argument, ?_⟩
    exact (Rig.tours_trackState line state argument rig).bind_keeps fun _ => Action.keeps_pure _
  | findOrbit decompose config momentum line argument guess =>
    cases hrange : argument.range line with
    | error fault =>
      refine ⟨[], .nowhere hrange, ?_⟩
      exact Action.tours_lift_bind fun r hr => nomatch hrange.symm.trans hr
    | ok r =>
      obtain ⟨n, hn, htours, hsteps⟩ := OrbitSearch.exists_tours_find decompose config momentum r guess rig.station
      refine ⟨_, .turns hrange hn hsteps, Action.tours_lift_bind fun r' hr' => ?_⟩
      obtain rfl := Except.ok.inj (hrange.symm.trans hr')
      have honStation : (Rig.onStation (OrbitSearch.find decompose config momentum r guess)).Tours Rig.station
          (List.replicate n r.span) rig := htours
      exact honStation.bind_keeps fun _ => Action.keeps_pure _

end TrackingCall

namespace Rig

variable {α : Type} [Scalar α]

/-- The rigs that calls for tracking lead to, each call with the rig that it was made at. Other work can come between
them, as long as it leaves the observers of the tracker and what is on record. -/
inductive Serves (rig : Rig α) : List (TrackingCall α × Rig α) → Rig α → Prop
  | start : Serves rig [] rig
  | call {calls : List (TrackingCall α × Rig α)} {rig₁ : Rig α} (h : Serves rig calls rig₁) (c : TrackingCall α) :
    Serves rig (calls ++ [(c, rig₁)]) (c.run.run rig₁).2
  | beside {calls : List (TrackingCall α × Rig α)} {rig₁ rig₂ : Rig α} (h : Serves rig calls rig₁)
    (hledger : rig₂.station.ledger = rig₁.station.ledger) : Serves rig calls rig₂

/-- The outings that a call made. -/
def Made (call : TrackingCall α × Rig α) (outings : List (Outing α)) : Prop :=
  ∃ legs, call.1.Goals call.2 legs ∧ Outing.Follow legs outings ((call.1.run.run call.2).1 = .ok ())

theorem Serves.exists_outings {rig rig' : Rig α} {calls : List (TrackingCall α × Rig α)} (h : Serves rig calls rig') :
    ∃ outings, List.Forall₂ Made calls outings ∧ rig.station.Told outings.flatten rig'.station := by
  induction h with
  | start => exact ⟨[], .nil, .of_ledger rfl⟩
  | @call calls rig₁ h c ih =>
    obtain ⟨outings, hmade, htold⟩ := ih
    obtain ⟨legs, hgoals, made, htold', hfollow⟩ := c.exists_goals rig₁
    refine ⟨outings ++ [made], ?_, ?_⟩
    · refine List.rel_append hmade (.cons ⟨legs, hgoals, ?_⟩ .nil)
      exact hfollow.congr fun hreturned => ⟨(), hreturned⟩
    · rw [List.flatten_append, List.flatten_singleton]
      exact htold.trans htold'
  | beside _ hledger ih =>
    obtain ⟨outings, hmade, htold⟩ := ih
    exact ⟨outings, hmade, htold.congr rfl hledger⟩

/-- Tracking without a range is refused and told to nobody. With one, every observer is told of a start once for each
time that it is attached, and then of the completion, or of an error. A fault of the simulation comes out as it is, and
any other with the index of the element that could not be passed, behind which none was come to. So calls put outings on
the record of an observer that stays attached: each a start and its end, as often as the observer is attached, in the
order in which the calls went through their ranges; and all outings of a call but its last have been completed, and that
one too if the call returned. -/
theorem tracking_is_bracketed :
    (∀ (t : Tracker α) (b : Bunch α) (plant : Plant α),
      (t.range = none → (Ride.track t).run ⟨b, plant⟩ = (.error (.noRange t.name), ⟨b, plant⟩)) ∧
      ∀ r, t.range = some r → Ride.Bracketed t r b plant ((Ride.track t).run ⟨b, plant⟩)) ∧
    ∀ (rig rig' : Rig α) (calls : List (TrackingCall α × Rig α)), Serves rig calls rig' →
      ∃ outings, List.Forall₂ Made calls outings ∧ rig.station.Told outings.flatten rig'.station ∧
        ∀ k, .failing k ∉ rig.tracker.observers → rig'.plant.received k = rig.plant.received k ++
          outings.flatten.flatMap fun o =>
            List.replicate (rig.tracker.observers.count (.recorder k)) o.start ++
              List.replicate (rig.tracker.observers.count (.recorder k)) o.stop := by
  refine ⟨fun t b plant => ⟨Ride.run_track_of_idle, fun r hr => Ride.bracketed_track hr b plant⟩, ?_⟩
  intro rig rig' calls hserves
  obtain ⟨outings, hmade, htold⟩ := hserves.exists_outings
  refine ⟨outings, hmade, htold, fun k hk => ?_⟩
  have haccount : (fun o : Outing α => o.account rig.tracker.observers k) = fun o =>
      List.replicate (rig.tracker.observers.count (.recorder k)) o.start ++
        List.replicate (rig.tracker.observers.count (.recorder k)) o.stop :=
    funext fun o => Outing.account_of_recorders hk o
  rw [← haccount]
  exact htold.received k

end Rig

namespace SmallMachine

/-- A machine that is watched by a recorder twice. -/
def watched : Machine Int :=
  (Command.initialise (.int 1)).after beam
    (.new "watched" line { processes := [0], observers := [.recorder 0, .logger, .recorder 0] }
      { processes := ⟨[(0, .finiteness false)]⟩ })

/-- The gap to the end of the line is too long. -/
def tooFar : TrackingCall Int := .trackState line (.int 0) (.segment (spot 4))

def nearby : TrackingCall Int := .trackState line (.int 0) (.segment near)

/-- At first there is no range to track. The first call then goes for the gap and stops in it with an error, the second
one tracks both of its legs. -/
theorem tracking_is_bracketed_watched :
    let between := (tooFar.run.run watched.rig).2
    let after := (nearby.run.run between).2
    watched.rig.tracker.range = none ∧
      (Ride.track watched.rig.tracker).run ⟨initial, watched.rig.plant⟩ =
        (.error (.noRange watched.rig.tracker.name), ⟨initial, watched.rig.plant⟩) ∧
      between.tracker.range = some (line.part 0 4) ∧
      Ride.Bracketed between.tracker (line.part 0 4) (initial) between.plant
        ((Ride.track between.tracker).run ⟨initial, between.plant⟩) ∧
      watched.rig.Serves [(tooFar, watched.rig), (nearby, between)] after ∧
      .failing 0 ∉ watched.rig.tracker.observers ∧
      (after.plant.received 0).length = 12 ∧
      ∃ outings, List.Forall₂ Rig.Made [(tooFar, watched.rig), (nearby, between)] outings ∧
        after.plant.received 0 = outings.flatten.flatMap fun o => [o.start, o.start, o.stop, o.stop] := by
  intro between after
  obtain ⟨htrackings, hcalls⟩ := Rig.tracking_is_bracketed (α := Int)
  have hidle : watched.rig.tracker.range = none := by decide +kernel
  have hrange : between.tracker.range = some (line.part 0 4) := rfl
  have hserves : watched.rig.Serves [(tooFar, watched.rig), (nearby, between)] after :=
    (Rig.Serves.start.call tooFar).call nearby
  have hobservers : .failing 0 ∉ watched.rig.tracker.observers := by decide +kernel
  have hnone : watched.rig.plant.received 0 = [] := by decide +kernel
  have htwice : watched.rig.tracker.observers.count (.recorder 0) = 2 := by decide +kernel
  obtain ⟨outings, hmade, -, hreceived⟩ := hcalls watched.rig after _ hserves
  refine ⟨hidle, (htrackings _ _ _).1 hidle, hrange, (htrackings _ _ _).2 _ hrange, hserves, hobservers,
    by decide +kernel, outings, hmade, ?_⟩
  rw [hreceived 0 hobservers, hnone, htwice]
  rfl

end SmallMachine

end BeamOptics
