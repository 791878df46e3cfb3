import BeamOptics.Proofs.Accelerator.Frame

/-!
# Tables of particles

Tracking maps the particles of a bunch one by one, so a table goes in and a table with as many rows comes out, also
where tracking fails on the way. Bunches that are not tracked are left alone, and those that are made on the way are
tables too.
-/

namespace BeamOptics

variable {α : Type}

/-- The bunches that there are after some others: all are tables, and those from before are still there, with their
charge and with a count of particles that goes with the count from before. -/
structure TablesAfter (count : Nat → Nat → Prop) (before after : Table Nat (Load α)) : Prop where
  table : ∀ number l, after.get? number = some l → ∃ b, l = .table b
  endures : ∀ number b, before.get? number = some (.table b) →
    ∃ b', after.get? number = some (.table b') ∧ b'.charge = b.charge ∧ count b.size b'.size

namespace TablesAfter

variable {count : Nat → Nat → Prop} {before after : Table Nat (Load α)}

theorem refl (hcount : ∀ n, count n n) (h : ∀ number l, before.get? number = some l → ∃ b, l = .table b) :
    TablesAfter count before before :=
  ⟨h, fun _ b hb => ⟨b, hb, rfl, hcount b.size⟩⟩

/-- A new bunch comes under a number of its own. -/
theorem made (h : TablesAfter count before after) {number : Nat} (hnew : after.get? number = none) (b : Bunch α) :
    TablesAfter count before (after.insert number (.table b)) := by
  refine ⟨fun number' l hl => ?_, fun number' b₀ hb₀ => ?_⟩
  · rw [Table.get?_insert] at hl
    split at hl
    · exact ⟨b, (Option.some.inj hl).symm⟩
    · exact h.table number' l hl
  · obtain ⟨b', hb', hcharge, hsize⟩ := h.endures number' b₀ hb₀
    refine ⟨b', ?_, hcharge, hsize⟩
    rw [Table.get?_insert, if_neg]
    · exact hb'
    · rintro rfl
      rw [hnew] at hb'
      cases hb'

/-- A bunch takes the place of what it was before. -/
theorem changed (h : TablesAfter count before after) {number : Nat} {b b' : Bunch α}
    (hb : after.get? number = some (.table b)) (hcharge : b'.charge = b.charge)
    (hsize : ∀ n, count n b.size → count n b'.size) :
    TablesAfter count before (after.insert number (.table b')) := by
  refine ⟨fun number' l hl => ?_, fun number' b₀ hb₀ => ?_⟩
  · rw [Table.get?_insert] at hl
    split at hl
    · exact ⟨b', (Option.some.inj hl).symm⟩
    · exact h.table number' l hl
  · obtain ⟨b₁, hb₁, hcharge₁, hsize₁⟩ := h.endures number' b₀ hb₀
    rw [Table.get?_insert]
    split
    · rename_i hsame
      subst hsame
      obtain rfl := Load.table.inj (Option.some.inj (hb.symm.trans hb₁))
      exact ⟨b', rfl, hcharge.trans hcharge₁, hsize _ hsize₁⟩
    · exact ⟨b₁, hb₁, hcharge₁, hsize₁⟩

end TablesAfter

/-! ### Rides -/

namespace Bunch

variable [Scalar α]

def outline (b : Bunch α) : α × Nat := (b.charge, b.size)

theorem steady_outline : Steady (outline : Bunch α → α × Nat) where
  mapParticles b f := Prod.ext (steady_charge.mapParticles b f) (steady_size.mapParticles b f)
  act h := Prod.ext (steady_charge.act h) (steady_size.act h)

end Bunch

section

variable [Scalar α] {τ : Type} {view : Bunch α → τ}

theorem Pass.keeps_view_throughElement (h : Bunch.Steady view) (processes : List (BeamProcess α)) (e : Element α) :
    (throughElement processes e).Keeps fun pass => view pass.bunch := by
  refine (Action.keeps_lift _).bind fun steps => ?_
  refine (Action.keeps_lift _).bind fun ds => ?_
  refine (Action.keeps_lift _).bind fun m => ?_
  refine (Action.keeps_ask _).bind fun strength => ?_
  refine Action.Keeps.bind ?_ fun _ => Action.keeps_modify fun _ => rfl
  exact fun pass => keeps_slices h _ e m _ ds steps pass.bunch

theorem Pass.keeps_view_throughLine (h : Bunch.Steady view) (processes : List (BeamProcess α)) (index : Nat)
    (elements : List (Element α)) : (throughLine processes index elements).Keeps fun pass => view pass.bunch := by
  induction elements generalizing index with
  | nil => exact Action.keeps_pure _
  | cons e rest ih => exact ((keeps_view_throughElement h processes e).mapError _).bind fun _ => ih (index + 1)

namespace Ride

omit [Scalar α] in
theorem keeps_view_onPass {ε β : Type} {a : Action ε (Pass α) β} (ha : a.Keeps fun pass => view pass.bunch) :
    (onPass a).Keeps fun ride => view ride.bunch := fun ride => ha ⟨ride.bunch, ride.plant.signals⟩

theorem keeps_view_throughElement (h : Bunch.Steady view) (t : Tracker α) (e : Element α) :
    (throughElement t e).Keeps fun ride => view ride.bunch := by
  refine (Action.keeps_ask _).bind fun processes => ?_
  refine (keeps_view_onPass (Pass.keeps_view_throughElement h processes e)).outcome.bind fun result => ?_
  cases result with
  | ok _ => exact Action.keeps_pure _
  | error fault => exact fun _ => rfl

theorem keeps_view_track (h : Bunch.Steady view) (t : Tracker α) : (track t).Keeps fun ride => view ride.bunch := by
  refine (Action.keeps_lift _).bind fun r => ?_
  refine (Action.keeps_ask _).bind fun journey => ?_
  refine Action.Keeps.bind (fun _ => rfl) fun _ => ?_
  refine (Action.keeps_ask _).bind fun processes => ?_
  refine (keeps_view_onPass (Pass.keeps_view_throughLine h processes r.first r.elements)).outcome.bind fun result => ?_
  cases result <;> exact fun _ => rfl

end Ride

end

/-! ### Stations -/

/-- A tracker's own initial bunch is a table. -/
def Tracker.StartsFromTable (t : Tracker α) : Prop := ∀ l, t.initial = some (.own l) → ∃ b, l = .table b

namespace Station

/-- The bunches of the plant are tables that come after others, and so is the tracker's own. -/
structure Holds (count : Nat → Nat → Prop) (before : Table Nat (Load α)) (s : Station α) : Prop where
  bunches : TablesAfter count before s.plant.bunches
  initial : s.tracker.StartsFromTable

/-- All that decides which bunches there are. -/
def stock (s : Station α) : Table Nat (Load α) × Option (InitialBunch α) := (s.plant.bunches, s.tracker.initial)

variable {β : Type} {count : Nat → Nat → Prop} {before : Table Nat (Load α)}

theorem upholds_of_keeps_stock {a : Action Fault (Station α) β} (ha : a.Keeps stock) :
    a.Upholds (Holds count before) := by
  refine ha.upholds fun s s' hstock hs => ?_
  obtain ⟨hbunches, hinitial⟩ := Prod.mk.inj hstock
  refine ⟨?_, fun l hl => hs.initial l ?_⟩
  · rw [hbunches]
    exact hs.bunches
  · rw [← hinitial]
    exact hl

/-- Tracking changes the log, records and readings, and no bunch but the tracked one. -/
theorem stock_of_surroundings {s s' : Station α} (h : s'.surroundings = s.surroundings) : s'.stock = s.stock := by
  have hbunches : s'.plant.bunches = s.plant.bunches := (congrArg Plant.bunches (apart_of_surroundings h) :)
  rw [stock, hbunches, tracker_of_surroundings h, stock]

theorem keeps_stock_note (n : TrackerNote) : (note n : Action Fault (Station α) Unit).Keeps stock :=
  fun _ => Prod.ext (Plant.bunches_note _ _) rfl

theorem keeps_stock_setRange (r : Range α) : (setRange r).Keeps stock := by
  refine Action.Keeps.bind (fun _ => rfl) fun _ => ?_
  exact keeps_stock_note _

theorem upholds_setInitial {initial : InitialBunch α} (h : ∀ l, initial = .own l → ∃ b, l = .table b) :
    (setInitial initial).Upholds (Holds count before) :=
  fun _ hs => ⟨hs.bunches, fun l hl => h l (Option.some.inj hl)⟩

variable [Scalar α]

theorem keeps_stock_trackCopy : (trackCopy : Action Fault (Station α) (Bunch α)).Keeps stock :=
  keeps_trackCopy_of fun b => (keeps_surroundings_trackBunch b).of_view fun _ _ => stock_of_surroundings

omit [Scalar α] in
/-- A shared bunch goes on a ride that leaves the plant's bunches alone, and takes its own place again. -/
theorem upholds_rideShared (number : Nat) {a : Tracker α → Action Fault (Ride α) β}
    (hplant : ∀ t, (a t).Keeps fun ride => ride.plant.bunches)
    (hbunch : ∀ t, (a t).Keeps fun ride => (ride.bunch.charge, ride.bunch.size)) :
    (rideShared number a).Upholds (Holds count before) := by
  intro s hs
  rw [rideShared, Action.run_get_bind]
  cases hnumber : s.plant.bunches.get? number with
  | none => exact hs
  | some l =>
    obtain ⟨b, rfl⟩ := hs.bunches.table number l hnumber
    have hkept : ((a s.tracker).run ⟨b, s.plant⟩).2.plant.bunches = s.plant.bunches := hplant s.tracker ⟨b, s.plant⟩
    obtain ⟨hcharge, hsize⟩ := Prod.mk.inj (hbunch s.tracker ⟨b, s.plant⟩)
    change Holds count before
      { s with
        plant := { ((a s.tracker).run ⟨b, s.plant⟩).2.plant with
          bunches := ((a s.tracker).run ⟨b, s.plant⟩).2.plant.bunches.insert number
            (.table ((a s.tracker).run ⟨b, s.plant⟩).2.bunch) } }
    refine ⟨?_, hs.initial⟩
    rw [hkept]
    refine hs.bunches.changed hnumber hcharge fun n hn => ?_
    rwa [hsize]

theorem upholds_rideShared_track (number : Nat) :
    (rideShared number Ride.track).Upholds (Holds count before : Station α → Prop) :=
  upholds_rideShared number
    (fun t => (Ride.keeps_apart_track t).of_view fun _ _ h => (congrArg Plant.bunches h :))
    fun t => Ride.keeps_view_track Bunch.steady_outline t

theorem upholds_rideShared_throughElement (number : Nat) (e : Element α) :
    (rideShared number fun t => Ride.throughElement t e).Upholds (Holds count before) := by
  refine upholds_rideShared number (fun t => ?_) fun t => Ride.keeps_view_throughElement Bunch.steady_outline t e
  have hkeeps := Ride.keeps_unread_throughElement t fun _ : e.isMonitor = true => List.mem_singleton_self e.tag
  exact hkeeps.of_view fun _ _ h => (congrArg Plant.bunches h :)

theorem upholds_step_holds : (step : Action Fault (Station α) Bool).Upholds (Holds count before) := by
  refine Action.keeps_get.upholds_of_id.bind fun s => ?_
  refine (Action.upholds_lift _).bind fun e => ?_
  refine (Action.upholds_lift _).bind fun bunch => ?_
  refine (upholds_rideShared_throughElement bunch e).bind fun _ => ?_
  refine Action.Upholds.bind ?_ fun _ => Action.upholds_ask _
  exact upholds_of_keeps_stock fun _ => rfl

end Station

/-! ### Accelerators -/

namespace Rig

variable {count : Nat → Nat → Prop} {before : Table Nat (Load α)}

def Holds (count : Nat → Nat → Prop) (before : Table Nat (Load α)) (rig : Rig α) : Prop :=
  rig.station.Holds count before

theorem upholds_onStation_holds {β : Type} {a : Action Fault (Station α) β}
    (ha : a.Upholds (Station.Holds count before)) : (onStation a).Upholds (Holds count before) :=
  fun rig h => ha rig.station h

theorem upholds_note_holds (n : AcceleratorNote α) : (note n).Upholds (Holds count before) := by
  intro rig h
  have hbunches : ((note n).run rig).2.plant.bunches = rig.plant.bunches := Plant.bunches_note _ _
  refine ⟨?_, h.initial⟩
  change TablesAfter count before ((note n).run rig).2.plant.bunches
  rw [hbunches]
  exact h.bunches

theorem upholds_onAccelerator_holds {β : Type} (a : Action Fault (Accelerator α) β) :
    (onAccelerator a).Upholds (Holds count before) := fun _ h => h

variable [Scalar α]

theorem upholds_trackFrom_holds (r : Range α) (b : Bunch α) : (trackFrom r b).Upholds (Holds count before) := by
  apply upholds_onStation_holds
  refine (Station.upholds_of_keeps_stock (Station.keeps_stock_setRange r)).bind fun _ => ?_
  refine Action.Upholds.bind ?_ fun _ => Station.upholds_of_keeps_stock Station.keeps_stock_trackCopy
  refine Station.upholds_setInitial fun l hl => ⟨b, ?_⟩
  exact (InitialBunch.own.inj hl).symm

theorem upholds_trackNewBunch_holds (m : Model α) (beam : ReferenceBeam α) :
    (trackNewBunch m beam).Upholds (Holds count before) := by
  refine (Action.upholds_lift _).bind fun b => ?_
  refine (Action.upholds_lift _).bind fun line => ?_
  refine Action.Upholds.bind ?_ fun b => (upholds_note_holds _).bind fun _ => Action.upholds_pure _
  apply upholds_onStation_holds
  refine Station.upholds_of_keeps_stock ((Station.keeps_stock_setRange line).bind fun _ => ?_)
  have htrack := (Station.keeps_surroundings_trackBunch b).of_view fun _ _ => Station.stock_of_surroundings
  exact htrack.bind fun tracked => (Action.keeps_lift _).bind fun _ => Action.keeps_pure _

theorem upholds_trackState_holds (m : Model α) (state : Datum) (argument : SegmentArgument) :
    (trackState m state argument).Upholds (Holds count before) :=
  upholds_trackState upholds_note_holds (fun _ _ => upholds_onAccelerator_holds _)
    (fun r b _ => upholds_trackFrom_holds r b) state argument

end Rig

end BeamOptics
