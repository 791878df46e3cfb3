import BeamOptics.Proofs.Scalar.Digits
import BeamOptics.Proofs.Tracking.Frame

/-!
# Particles by themselves

Unless the reference momentum follows the bunch, tracking takes every particle where it would go alone: what becomes of
a particle is a function of it and of the reference momentum, and a bunch gets through if all of its particles do. So
particles have no part in each other's ways, and bunches can be rearranged and joined before or after tracking.
-/

namespace BeamOptics

/-- Values are all there if and only if they are the values of a list. -/
theorem exists_map_some_iff {β γ : Type} {f : β → Option γ} {items : List β} :
    (∃ images : List γ, items.map f = images.map some) ↔ ∀ a ∈ items, f a ≠ none := by
  induction items with
  | nil => exact iff_of_true ⟨[], rfl⟩ fun a ha => absurd ha List.not_mem_nil
  | cons a rest ih =>
    rw [List.forall_mem_cons, ← ih]
    constructor
    · rintro ⟨images, himages⟩
      cases images with
      | nil => cases himages
      | cons image images =>
        obtain ⟨hhead, htail⟩ := List.cons.inj himages
        exact ⟨by simp [hhead], images, htail⟩
    · rintro ⟨hhead, images, htail⟩
      obtain ⟨image, himage⟩ := Option.ne_none_iff_exists'.mp hhead
      exact ⟨image :: images, by rw [List.map_cons, List.map_cons, himage, htail]⟩

theorem map_some_injective {γ : Type} {images images' : List γ} (h : images.map some = images'.map some) :
    images = images' :=
  (List.map_inj_right fun _ _ => Option.some.inj).mp h

theorem toOption_eq_some_iff {ε β : Type} {x : Except ε β} {b : β} : x.toOption = some b ↔ x = .ok b := by
  cases x <;> simp [Except.toOption]

theorem map_filterMap_getElem? {β γ : Type} (f : β → γ) (items : List β) (order : List Nat) :
    (order.filterMap (items[·]?)).map f = order.filterMap ((items.map f)[·]?) := by
  simp only [List.map_filterMap, List.getElem?_map]

theorem filterMap_range_getElem? {β : Type} (items : List β) :
    (List.range items.length).filterMap (items[·]?) = items := by
  induction items with
  | nil => rfl
  | cons a rest ih =>
    rw [List.length_cons, List.range_succ_eq_map, List.filterMap_cons, List.filterMap_map]
    exact congrArg (a :: ·) ih

variable {α : Type}

def Bunch.withParticles (b : Bunch α) (particles : List (PhaseVector α)) : Bunch α := { b with particles }

/-- The bunch with its particles in the order of some indexes. -/
def Bunch.arranged (b : Bunch α) (order : List Nat) : Bunch α := b.withParticles (order.filterMap (b.particles[·]?))

theorem Bunch.arranged_perm {b : Bunch α} {order : List Nat} (h : order.Perm (List.range b.size)) :
    (b.arranged order).particles.Perm b.particles := by
  have hperm := h.filterMap (b.particles[·]?)
  rwa [size, filterMap_range_getElem?] at hperm

/-- A way to take bunches somewhere takes each particle there by itself, or stops it, and touches nothing but the
particles. A bunch without particles is not looked at. -/
def Particlewise {ε : Type} (way : Bunch α → Except ε (Bunch α)) : Prop :=
  ∃ take : α → PhaseVector α → Option (PhaseVector α), ∀ b : Bunch α, b.particles ≠ [] → ∀ b',
    way b = .ok b' ↔ ∃ images, b.particles.map (take b.momentum) = images.map some ∧ b' = b.withParticles images

namespace Particlewise

variable {ε ε' : Type} {way way' : Bunch α → Except ε (Bunch α)}

/-! ### Ways put together -/

theorem map (f : PhaseVector α → PhaseVector α) :
    Particlewise fun b => (.ok (b.mapParticles f) : Except ε (Bunch α)) := by
  refine ⟨fun _ v => some (f v), fun b _ b' => ?_⟩
  have hmap : b.particles.map (fun v => some (f v)) = (b.particles.map f).map some := by
    rw [List.map_map]
    rfl
  constructor
  · intro h
    exact ⟨_, hmap, (Except.ok.inj h).symm⟩
  · rintro ⟨images, himages, rfl⟩
    rw [hmap] at himages
    rw [← map_some_injective himages]
    rfl

theorem refl : Particlewise (.ok : Bunch α → Except ε (Bunch α)) := by
  have hmap := map (ε := ε) (fun v : PhaseVector α => v)
  simpa only [Bunch.mapParticles, List.map_id'] using hmap

theorem error (e : ε) : Particlewise fun _ : Bunch α => (.error e : Except ε (Bunch α)) := by
  refine ⟨fun _ _ => none, fun b hb b' => iff_of_false nofun ?_⟩
  rintro ⟨images, himages, -⟩
  obtain ⟨v, hv⟩ := List.exists_mem_of_ne_nil _ hb
  exact exists_map_some_iff.mp ⟨images, himages⟩ v hv rfl

theorem bind (h : Particlewise way) (h' : Particlewise way') : Particlewise fun b => way b >>= way' := by
  obtain ⟨take, htake⟩ := h
  obtain ⟨take', htake'⟩ := h'
  refine ⟨fun momentum v => (take momentum v).bind (take' momentum), fun b hb b'' => ?_⟩
  have hboth {images : List (PhaseVector α)} (himages : b.particles.map (take b.momentum) = images.map some) :
      b.particles.map (fun v => (take b.momentum v).bind (take' b.momentum)) = images.map (take' b.momentum) := by
    have hbind := congrArg (List.map fun image => image.bind (take' b.momentum)) himages
    simpa only [List.map_map, Function.comp_def, Option.bind_some] using hbind
  have hsome {images : List (PhaseVector α)} (himages : b.particles.map (take b.momentum) = images.map some) :
      images ≠ [] := by
    rintro rfl
    exact hb (List.map_eq_nil_iff.mp himages)
  rw [bind_eq_ok_iff]
  constructor
  · rintro ⟨b', hb', hb''⟩
    obtain ⟨images, himages, rfl⟩ := (htake b hb b').mp hb'
    obtain ⟨images', himages', rfl⟩ := (htake' _ (hsome himages) b'').mp hb''
    exact ⟨images', (hboth himages).trans himages', rfl⟩
  · rintro ⟨images', himages', rfl⟩
    obtain ⟨images, himages⟩ : ∃ images : List (PhaseVector α),
        b.particles.map (take b.momentum) = images.map some := by
      rw [exists_map_some_iff]
      intro v hv hnone
      refine exists_map_some_iff.mp ⟨images', himages'⟩ v hv ?_
      dsimp only
      rw [hnone, Option.bind_none]
    refine ⟨b.withParticles images, (htake b hb _).mpr ⟨images, himages, rfl⟩, ?_⟩
    exact (htake' _ (hsome himages) _).mpr ⟨images', (hboth himages).symm.trans himages', rfl⟩

/-- What comes before the way and is not about the bunch. -/
theorem lift_bind {β : Type} {r : Except ε β} {ways : β → Bunch α → Except ε (Bunch α)}
    (h : ∀ a, r = .ok a → Particlewise (ways a)) : Particlewise fun b => r >>= fun a => ways a b := by
  cases r with
  | error e => exact error e
  | ok a => exact h a rfl

theorem mapError (h : Particlewise way) (f : ε → ε') : Particlewise fun b => (way b).mapError f := by
  obtain ⟨take, htake⟩ := h
  exact ⟨take, fun b hb b' => mapError_eq_ok_iff.trans (htake b hb b')⟩

/-- The reference momentum is the same for all particles, and may decide on the way. -/
theorem of_momentum {ways : α → Bunch α → Except ε (Bunch α)} (h : ∀ momentum, Particlewise (ways momentum)) :
    Particlewise fun b => ways b.momentum b := by
  obtain ⟨take, htake⟩ := Classical.skolem.mp h
  exact ⟨fun momentum => take momentum momentum, fun b hb => htake b.momentum b hb⟩

theorem congr (h : Particlewise way) (hway : ∀ b : Bunch α, b.particles ≠ [] → way' b = way b) :
    Particlewise way' := by
  obtain ⟨take, htake⟩ := h
  refine ⟨take, fun b hb => ?_⟩
  rw [hway b hb]
  exact htake b hb

/-! ### What follows for bunches -/

variable {b : Bunch α}

theorem of_ok (h : Particlewise way) (hb : b.particles ≠ []) {b' : Bunch α} (hway : way b = .ok b') :
    b'.momentum = b.momentum ∧ b'.charge = b.charge ∧ b'.size = b.size ∧
      ∀ (i : Nat) (v : PhaseVector α), b.particles[i]? = some v → ∃ v', b'.particles[i]? = some v' ∧
        ∀ charge, way ⟨b.momentum, charge, [v]⟩ = .ok ⟨b.momentum, charge, [v']⟩ := by
  obtain ⟨take, htake⟩ := h
  obtain ⟨images, himages, rfl⟩ := (htake b hb b').mp hway
  refine ⟨rfl, rfl, ?_, ?_⟩
  · have hlength := congrArg List.length himages
    rw [List.length_map, List.length_map] at hlength
    exact hlength.symm
  · intro i v hv
    have hrow := congrArg (·[i]?) himages
    simp only [List.getElem?_map, hv, Option.map_some] at hrow
    obtain ⟨v', hv', himage⟩ := Option.map_eq_some_iff.mp hrow.symm
    refine ⟨v', hv', fun charge => (htake _ (List.cons_ne_nil v []) _).mpr ⟨[v'], ?_, rfl⟩⟩
    exact congrArg (fun image => [image]) himage.symm

theorem error_iff (h : Particlewise way) (hb : b.particles ≠ []) :
    (∃ e, way b = .error e) ↔ ∃ v ∈ b.particles, ∃ e, way ⟨b.momentum, b.charge, [v]⟩ = .error e := by
  obtain ⟨take, htake⟩ := h
  have herror {c : Bunch α} (hc : c.particles ≠ []) :
      (∃ e, way c = .error e) ↔ ∃ v ∈ c.particles, take c.momentum v = none := by
    have hok : (∃ c', way c = .ok c') ↔
        ∃ images : List (PhaseVector α), c.particles.map (take c.momentum) = images.map some := by
      constructor
      · rintro ⟨c', hc'⟩
        obtain ⟨images, himages, -⟩ := (htake c hc c').mp hc'
        exact ⟨images, himages⟩
      · rintro ⟨images, himages⟩
        exact ⟨_, (htake c hc _).mpr ⟨images, himages, rfl⟩⟩
    rw [exists_map_some_iff] at hok
    cases hway : way c with
    | error e =>
      rw [hway] at hok
      simpa using hok
    | ok c' =>
      rw [hway] at hok
      simpa using hok
  rw [herror hb]
  constructor
  · rintro ⟨v, hv, hnone⟩
    exact ⟨v, hv, (herror (List.cons_ne_nil v [])).mpr ⟨v, List.mem_singleton_self v, hnone⟩⟩
  · rintro ⟨v, hv, halone⟩
    obtain ⟨w, hw, hnone⟩ := (herror (List.cons_ne_nil v [])).mp halone
    obtain rfl := List.mem_singleton.mp hw
    exact ⟨w, hv, hnone⟩

/-- Where a particle ends up does not depend on the particles around it. -/
theorem getElem?_eq (h : Particlewise way) {particles : List (PhaseVector α)} (hb : b.particles ≠ [])
    (hparticles : particles ≠ []) {b' c : Bunch α} (hway : way b = .ok b')
    (hway' : way (b.withParticles particles) = .ok c) {i : Nat} (hi : particles[i]? = b.particles[i]?) :
    c.particles[i]? = b'.particles[i]? := by
  obtain ⟨take, htake⟩ := h
  obtain ⟨images, himages, rfl⟩ := (htake b hb b').mp hway
  obtain ⟨images', himages', rfl⟩ := (htake (b.withParticles particles) hparticles c).mp hway'
  have hrow := congrArg (·[i]?) himages
  have hrow' := congrArg (·[i]?) himages'
  simp only [Bunch.withParticles, List.getElem?_map, hi] at hrow hrow'
  exact Option.map_inj_right (fun _ _ => Option.some.inj) |>.mp (hrow'.symm.trans hrow)

theorem toOption_append (h : Particlewise way) (hb : b.particles ≠ []) {others : List (PhaseVector α)}
    (hothers : others ≠ []) :
    (way (b.withParticles (b.particles ++ others))).toOption =
      (way b).toOption.bind fun b' => (way (b.withParticles others)).toOption.map fun c =>
        b.withParticles (b'.particles ++ c.particles) := by
  obtain ⟨take, htake⟩ := h
  have hboth := htake (b.withParticles (b.particles ++ others)) (List.append_ne_nil_of_left_ne_nil hb _)
  ext d
  simp only [Option.bind_eq_some_iff, Option.map_eq_some_iff, toOption_eq_some_iff, hboth, htake b hb,
    htake (b.withParticles others) hothers]
  constructor
  · rintro ⟨images, himages, rfl⟩
    simp only [Bunch.withParticles, List.map_append] at himages
    obtain ⟨front, back, rfl, hfront, hback⟩ := List.map_eq_append_iff.mp himages.symm
    exact ⟨_, ⟨front, hfront.symm, rfl⟩, _, ⟨back, hback.symm, rfl⟩, rfl⟩
  · rintro ⟨-, ⟨front, hfront, rfl⟩, -, ⟨back, hback, rfl⟩, rfl⟩
    refine ⟨front ++ back, ?_, rfl⟩
    simp only [Bunch.withParticles, List.map_append] at hback ⊢
    rw [hfront, hback]

theorem toOption_arranged (h : Particlewise way) (hb : b.particles ≠ []) {order : List Nat}
    (horder : order.Perm (List.range b.size)) :
    (way (b.arranged order)).toOption = (way b).toOption.map (·.arranged order) := by
  obtain ⟨take, htake⟩ := h
  have hperm : (b.arranged order).particles.Perm b.particles := Bunch.arranged_perm horder
  have hselected {images : List (PhaseVector α)} (himages : b.particles.map (take b.momentum) = images.map some) :
      (b.arranged order).particles.map (take b.momentum) = (order.filterMap (images[·]?)).map some := by
    simp only [Bunch.arranged, Bunch.withParticles, map_filterMap_getElem?, himages]
  have hnonempty : (b.arranged order).particles ≠ [] := by
    rintro hnil
    rw [hnil] at hperm
    exact hb hperm.nil_eq.symm
  ext d
  simp only [Option.map_eq_some_iff, toOption_eq_some_iff, htake b hb, htake (b.arranged order) hnonempty]
  constructor
  · rintro ⟨images, himages, rfl⟩
    obtain ⟨originals, horiginals⟩ : ∃ originals : List (PhaseVector α),
        b.particles.map (take b.momentum) = originals.map some := by
      rw [exists_map_some_iff]
      intro v hv
      exact exists_map_some_iff.mp ⟨images, himages⟩ v (hperm.mem_iff.mpr hv)
    rw [map_some_injective (himages.symm.trans (hselected horiginals))]
    exact ⟨_, ⟨originals, horiginals, rfl⟩, rfl⟩
  · rintro ⟨-, ⟨images, himages, rfl⟩, rfl⟩
    exact ⟨_, hselected himages, rfl⟩

end Particlewise

/-! ### Processes -/

namespace BeamProcess

/-- Whether the reference momentum follows the mean momentum of a bunch. -/
def rereferences : BeamProcess α → Bool
  | radiation r => r.rereference
  | _ => false

variable [Scalar α]

theorem nonFinite_eq_nil_iff {particles : List (PhaseVector α)} :
    nonFinite particles = [] ↔ ∀ v ∈ particles, v.isFinite = true := by
  rw [nonFinite, List.map_eq_nil_iff, List.filter_eq_nil_iff]
  constructor
  · intro h v hv
    obtain ⟨i, hi, rfl⟩ := List.getElem_of_mem hv
    simpa using h (particles[i], i) (List.mk_mem_zipIdx_iff_getElem?.mpr (List.getElem?_eq_getElem hi))
  · intro h item hitem
    have hmem : item.1 ∈ particles := by
      have hfirst := List.mem_map_of_mem (f := Prod.fst) hitem
      rwa [List.zipIdx_map_fst] at hfirst
    simp [h item.1 hmem]

theorem particlewise_finiteness (detailed : Bool) (e : Element α) (ds : α) :
    Particlewise ((finiteness detailed).act e ds) := by
  refine ⟨fun _ v => if v.isFinite then some v else none, fun b hb b' => ?_⟩
  have hfinite (h : ∀ v ∈ b.particles, v.isFinite = true) :
      b.particles.map (fun v => if v.isFinite then some v else none) = b.particles.map some :=
    List.map_congr_left fun v hv => if_pos (h v hv)
  have hact : (finiteness detailed).act e ds b = .ok b' ↔ nonFinite b.particles = [] ∧ b = b' := by
    rw [act]
    split
    · next hnil => simp [hnil]
    · next hne => exact iff_of_false (by simp) fun h => hne h.1
  rw [hact, nonFinite_eq_nil_iff]
  constructor
  · rintro ⟨hall, rfl⟩
    exact ⟨b.particles, hfinite hall, rfl⟩
  · rintro ⟨images, himages, rfl⟩
    have hall : ∀ v ∈ b.particles, v.isFinite = true := by
      intro v hv
      have hsome := exists_map_some_iff.mp ⟨images, himages⟩ v hv
      simpa using hsome
    rw [← map_some_injective ((hfinite hall).symm.trans himages)]
    exact ⟨hall, rfl⟩

theorem particlewise_radiation {r : Radiation α} (h : r.rereference = false) (e : Element α) (ds : α) :
    Particlewise ((radiation r).act e ds) := by
  cases hidle : !e.isBend || Scalar.beq ds 0 with
  | true =>
    refine Particlewise.refl.congr fun b _ => ?_
    rw [act, Radiation.act, hidle]
    rfl
  | false =>
    have hloss (momentum : α) : Particlewise fun b : Bunch α => ofMath (Scalar.cube momentum) >>= fun cubed =>
        (.ok (b.mapParticles fun v => { v with dp := v.dp - Radiation.loss cubed e.curvature ds v.dp }) :
          Except Fault (Bunch α)) := Particlewise.lift_bind fun _ _ => Particlewise.map _
    refine (Particlewise.of_momentum hloss).congr fun b hb => ?_
    have hnonempty : b.particles.isEmpty = false := List.isEmpty_eq_false_iff.mpr hb
    rw [act, Radiation.act, hidle, hnonempty]
    cases Scalar.cube b.momentum with
    | error fault => rfl
    | ok cubed =>
      simp only [h]
      rfl

theorem particlewise_act {p : BeamProcess α} (h : p.rereferences = false) (e : Element α) (ds : α) :
    Particlewise (p.act e ds) := by
  cases p with
  | radiation r => exact particlewise_radiation h e ds
  | finiteness detailed => exact particlewise_finiteness detailed e ds
  | ringDelta scale =>
    cases hidle : !e.isBend || Scalar.beq ds 0 with
    | true =>
      refine Particlewise.refl.congr fun b _ => ?_
      rw [act, hidle]
      rfl
    | false =>
      refine (Particlewise.map fun v => { v with ct := v.ct - scale * ds }).congr fun b _ => ?_
      rw [act, hidle]
      rfl

end BeamProcess

/-! ### Elements, lines and ranges -/

variable [Scalar α]

namespace Pass

variable {processes : List (BeamProcess α)}

theorem particlewise_applyAll (h : ∀ p ∈ processes, p.rereferences = false) (e : Element α) (ds : α) :
    Particlewise (applyAll e ds processes).reach := by
  induction processes with
  | nil => exact Particlewise.refl
  | cons p rest ih =>
    have hfirst := BeamProcess.particlewise_act (h p List.mem_cons_self) e ds
    have hrest := ih fun q hq => h q (List.mem_cons_of_mem p hq)
    exact (hfirst.bind hrest).congr fun b _ => reach_applyAll_cons e ds p rest b

theorem particlewise_slices (h : ∀ p ∈ processes, p.rereferences = false) (e : Element α) (m : TransferMap α)
    (kick : PhaseVector α) (ds : α) (n : Nat) : Particlewise (slices processes e m kick ds n).reach := by
  induction n with
  | zero => exact Particlewise.refl
  | succ n ih =>
    have hslice : Particlewise (slice processes e m kick ds).reach :=
      ((Particlewise.map fun v => m.act v + kick).bind (particlewise_applyAll h e ds)).congr fun b _ => rfl
    refine (hslice.bind ih).congr fun b _ => ?_
    rw [slices, Action.reach_bind]

theorem particlewise_through (h : ∀ p ∈ processes, p.rereferences = false) (signals : Signals α) (e : Element α) :
    Particlewise (through processes signals e) := by
  have hordered : ∀ p ∈ BeamProcess.inOrder BeamProcess.kind processes, p.rereferences = false :=
    fun p hp => h p (BeamProcess.mem_of_mem_inOrder hp)
  have hslices : Particlewise fun b => stepCount processes e >>= fun n => inSlices processes signals e n b := by
    refine Particlewise.lift_bind fun n _ => ?_
    refine Particlewise.lift_bind fun ds _ => ?_
    exact Particlewise.lift_bind fun m _ => particlewise_slices hordered e m _ ds n
  exact hslices.congr fun b _ => through_eq processes signals e b

theorem particlewise_along (h : ∀ p ∈ processes, p.rereferences = false) (signals : Signals α) (index : Nat)
    (elements : List (Element α)) : Particlewise (along processes signals index elements) := by
  induction elements generalizing index with
  | nil => exact Particlewise.refl
  | cons e rest ih =>
    exact ((particlewise_through h signals e).mapError fun fault => (index, fault)).bind (ih (index + 1))

end Pass

theorem Range.particlewise_transport {processes : List (BeamProcess α)} (h : ∀ p ∈ processes, p.rereferences = false)
    (signals : Signals α) (r : Range α) : Particlewise (r.transport processes signals) :=
  (Pass.particlewise_along h signals r.first r.elements).mapError surface

namespace Station

/-- What tracking a bunch in place ends in: the bunch as it is then, or the fault. -/
def tracked (s : Station α) (b : Bunch α) : Except Fault (Bunch α) :=
  ((do
    let (result, b) ← trackBunch b
    Action.lift result
    pure b : Action Fault (Station α) (Bunch α)).run s).1

theorem tracked_of_range_eq_none {s : Station α} (h : s.tracker.range = none) (b : Bunch α) :
    s.tracked b = .error (.noRange s.tracker.name) := by
  have hrequire : s.tracker.requireRange = .error (.noRange s.tracker.name) := by
    rw [Tracker.requireRange, h]
  have hrun : (trackBunch b).run s = (.ok (.error (.noRange s.tracker.name), b), s) := by
    rw [run_trackBunch, Ride.track, hrequire]
    rfl
  rw [tracked, Action.run_bind_of_ok hrun]
  rfl

theorem particlewise_tracked {s : Station α}
    (h : ∀ p ∈ s.plant.processesOf s.tracker.processes, p.rereferences = false) : Particlewise s.tracked := by
  cases hrange : s.tracker.range with
  | none => exact (Particlewise.error _).congr fun b _ => tracked_of_range_eq_none hrange b
  | some r => exact (r.particlewise_transport h s.plant.signals).congr fun b _ => outcome_trackBunch hrange b

/-- As long as the reference momentum does not follow the bunch, a bunch that is tracked keeps its momentum, its charge
and the count and order of its particles, and each of them ends up where it does alone; the bunch is stopped if one of
its particles is stopped alone. So no particle is disturbed by the ones around it, and bunches can be joined, and their
particles rearranged, before tracking as well as after it. -/
theorem particles_are_tracked_alone {s : Station α}
    (hmomentum : ∀ p ∈ s.plant.processesOf s.tracker.processes, p.rereferences = false) {b : Bunch α}
    (hb : b.particles ≠ []) :
    (∀ b', s.tracked b = .ok b' →
      b'.momentum = b.momentum ∧ b'.charge = b.charge ∧ b'.size = b.size ∧
      ∀ (i : Nat) (v : PhaseVector α), b.particles[i]? = some v → ∃ v', b'.particles[i]? = some v' ∧
        ∀ charge, s.tracked ⟨b.momentum, charge, [v]⟩ = .ok ⟨b.momentum, charge, [v']⟩) ∧
    ((∃ fault, s.tracked b = .error fault) ↔
      ∃ v ∈ b.particles, ∃ fault, s.tracked ⟨b.momentum, b.charge, [v]⟩ = .error fault) ∧
    (∀ others b' c, others ≠ [] → s.tracked b = .ok b' → s.tracked (b.withParticles others) = .ok c →
      ∀ i : Nat, others[i]? = b.particles[i]? → c.particles[i]? = b'.particles[i]?) ∧
    (∀ order : List Nat, order.Perm (List.range b.size) →
      (s.tracked (b.arranged order)).toOption = (s.tracked b).toOption.map (·.arranged order)) ∧
    ∀ others, others ≠ [] →
      (s.tracked (b.withParticles (b.particles ++ others))).toOption =
        (s.tracked b).toOption.bind fun b' => (s.tracked (b.withParticles others)).toOption.map fun c =>
          b.withParticles (b'.particles ++ c.particles) := by
  have halone := particlewise_tracked hmomentum
  refine ⟨fun b' => halone.of_ok hb, halone.error_iff hb, ?_, fun order => halone.toOption_arranged hb, ?_⟩
  · intro others b' c hothers hb' hc i
    exact halone.getElem?_eq hb hothers hb' hc
  · intro others
    exact halone.toOption_append hb

end Station

namespace SmallMachine

/-- A drift and a straight bend, with a path to lengthen and a check on the particles. -/
def straight : Station Int where
  tracker :=
    { range := some ⟨0, [⟨0, "D", "Drift", 1, .drift⟩, ⟨1, "B", "SectorBend", 2, .bend 0 0⟩]⟩
      processes := [1, 0] }
  plant := { processes := ⟨[(0, .ringDelta 1), (1, .finiteness false)]⟩ }

/-- Two particles; in three more slopes the second one would be too far out. -/
def pair : Bunch Int := ⟨1, 1, [⟨1, 0, 0, 0, 0, 0⟩, ⟨0, 3, 0, 0, 0, 0⟩]⟩

theorem particles_are_tracked_alone_straight :
    straight.tracked pair = .ok ⟨1, 1, [⟨1, 0, 0, 0, -2, 0⟩, ⟨9, 3, 0, 0, -2, 0⟩]⟩ ∧
      straight.tracked ⟨1, 5, [⟨0, 3, 0, 0, 0, 0⟩]⟩ = .ok ⟨1, 5, [⟨9, 3, 0, 0, -2, 0⟩]⟩ ∧
      (straight.tracked (pair.arranged [1, 0])).toOption = some ⟨1, 1, [⟨9, 3, 0, 0, -2, 0⟩, ⟨1, 0, 0, 0, -2, 0⟩]⟩ ∧
      ∃ fault, straight.tracked (pair.append ⟨1, 3, 0, 0, 0, 0⟩) = .error fault := by
  have hmomentum : ∀ p ∈ straight.plant.processesOf straight.tracker.processes, p.rereferences = false := by
    intro p hp
    have hprocesses : p ∈ [BeamProcess.finiteness false, .ringDelta 1] := hp
    rcases List.mem_cons.mp hprocesses with rfl | hrest
    · rfl
    · obtain rfl := List.mem_singleton.mp hrest
      rfl
  have htracked : straight.tracked pair = .ok ⟨1, 1, [⟨1, 0, 0, 0, -2, 0⟩, ⟨9, 3, 0, 0, -2, 0⟩]⟩ := rfl
  have hpair : pair.particles ≠ [] := List.cons_ne_nil _ _
  have hthree : (pair.append ⟨1, 3, 0, 0, 0, 0⟩).particles ≠ [] := List.cons_ne_nil _ _
  obtain ⟨hok, -, -, harranged, -⟩ := Station.particles_are_tracked_alone hmomentum hpair
  obtain ⟨-, herror, -⟩ := Station.particles_are_tracked_alone hmomentum hthree
  obtain ⟨-, -, -, hrows⟩ := hok _ htracked
  obtain ⟨v', hv', hsingle⟩ := hrows 1 _ rfl
  obtain rfl := Option.some.inj hv'
  refine ⟨htracked, hsingle 5, ?_, herror.mpr ⟨⟨1, 3, 0, 0, 0, 0⟩, ?_, _, rfl⟩⟩
  · rw [harranged [1, 0] (by decide), htracked]
    rfl
  · exact List.mem_append_right _ List.mem_cons_self

end SmallMachine

end BeamOptics
