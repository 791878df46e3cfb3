import BeamOptics.Proofs.Exact.Radiation
import BeamOptics.Proofs.Exact.Settings
import BeamOptics.Proofs.Exact.Slicing
import BeamOptics.Proofs.Tracking.ProcessOrder

/-!
# Path lengths

Nothing along a line reads the path length of a particle, if there is no explicit map to do it: it is only added to.
So a bunch can be given other path lengths before or after tracking, and a process that rescales the path in bends,
wherever it stands among the others, comes out of a range as one length that all particles have in addition.
-/

namespace BeamOptics

theorem PhaseVector.add_ofCt (v : PhaseVector ℝ) (a : ℝ) : v + .ofCt a = { v with ct := v.ct + a } := by
  apply ext_get
  intro c
  rw [get_add]
  cases c with
  | ct => rfl
  | _ => exact add_zero _

theorem PhaseVector.get_add_ofCt {c : Coordinate} (h : c ≠ .ct) (v : PhaseVector ℝ) (a : ℝ) :
    (v + .ofCt a).get c = v.get c := by
  rw [add_ofCt]
  cases c with
  | ct => exact absurd rfl h
  | _ => rfl

namespace Bunch

/-! ### Bunches with other path lengths -/

/-- A bunch with something added to the path length of each particle. -/
noncomputable def lengthen (shift : Nat → ℝ) (b : Bunch ℝ) : Bunch ℝ :=
  { b with particles := b.particles.mapIdx fun i v => v + .ofCt (shift i) }

theorem getElem?_lengthen (b : Bunch ℝ) (shift : Nat → ℝ) (i : Nat) :
    (b.lengthen shift).particles[i]? = b.particles[i]?.map (· + .ofCt (shift i)) := List.getElem?_mapIdx

theorem lengthen_zero (b : Bunch ℝ) : b.lengthen (fun _ => 0) = b := by
  refine congrArg (Bunch.mk b.momentum b.charge) (List.ext_getElem? fun i => ?_)
  rw [List.getElem?_mapIdx, PhaseVector.ofCt_zero, funext PhaseVector.add_zero_real, Option.map_id']

theorem lengthen_lengthen (b : Bunch ℝ) (shift shift' : Nat → ℝ) :
    (b.lengthen shift).lengthen shift' = b.lengthen fun i => shift i + shift' i := by
  have hsum (i : Nat) (v : PhaseVector ℝ) : v + .ofCt (shift i) + .ofCt (shift' i) = v + .ofCt (shift i + shift' i) := by
    rw [PhaseVector.add_assoc_real, PhaseVector.ofCt_add]
  refine congrArg (Bunch.mk b.momentum b.charge) ?_
  rw [lengthen, List.mapIdx_mapIdx]
  exact congrArg (List.mapIdx · b.particles) (funext₂ hsum)

theorem mapParticles_lengthening (b : Bunch ℝ) (a : ℝ) :
    b.mapParticles (AffineTurn.lengthening a).act = b.lengthen fun _ => a := by
  refine congrArg (Bunch.mk b.momentum b.charge) (List.ext_getElem? fun i => ?_)
  rw [List.getElem?_mapIdx, List.getElem?_map, funext (AffineTurn.act_lengthening a)]

/-- A map that lets path lengths through lets them through in a bunch. -/
theorem mapParticles_lengthen {f : PhaseVector ℝ → PhaseVector ℝ} (h : ∀ v a, f (v + .ofCt a) = f v + .ofCt a)
    (b : Bunch ℝ) (shift : Nat → ℝ) : (b.lengthen shift).mapParticles f = (b.mapParticles f).lengthen shift := by
  have hrow (i : Nat) : ((b.lengthen shift).particles.map f)[i]? = ((b.mapParticles f).lengthen shift).particles[i]? := by
    rw [List.getElem?_map, getElem?_lengthen, getElem?_lengthen, mapParticles, List.getElem?_map, Option.map_map,
      Option.map_map]
    exact congrArg (Option.map · b.particles[i]?) (funext fun v => h v (shift i))
  exact congrArg (Bunch.mk b.momentum b.charge) (List.ext_getElem? hrow)

theorem mean_lengthen (b : Bunch ℝ) (shift : Nat → ℝ) :
    mean (b.lengthen shift).particles .dp = mean b.particles .dp := by
  have hdp := PhaseVector.get_add_ofCt (c := .dp) nofun
  have hmap : (b.lengthen shift).particles.map (fun v => v.get .dp) = b.particles.map fun v => v.get .dp := by
    refine List.ext_getElem? fun i => ?_
    rw [List.getElem?_map, List.getElem?_map, getElem?_lengthen, Option.map_map]
    exact congrArg (Option.map · b.particles[i]?) (funext fun v => hdp v (shift i))
  have hlength : (b.lengthen shift).particles.length = b.particles.length := List.length_mapIdx
  rw [mean, mean, hmap, hlength]

/-- Two bunches whose particles differ in their path lengths at most. -/
structure SameButCt (b c : Bunch ℝ) : Prop where
  momentum : c.momentum = b.momentum
  charge : c.charge = b.charge
  particles : List.Forall₂ (fun v w => ∀ d, d ≠ Coordinate.ct → w.get d = v.get d) b.particles c.particles

/-- How much longer the paths in a second bunch are, particle by particle. -/
noncomputable def gaps (b c : Bunch ℝ) : List ℝ := List.zipWith (fun v w => w.ct - v.ct) b.particles c.particles

theorem sameButCt_lengthen (b : Bunch ℝ) (shift : Nat → ℝ) : b.SameButCt (b.lengthen shift) where
  momentum := rfl
  charge := rfl
  particles := by
    refine List.forall₂_iff_get.mpr ⟨List.length_mapIdx.symm, fun i hi hi' d hd => ?_⟩
    have hrow : (b.lengthen shift).particles.get ⟨i, hi'⟩ = b.particles.get ⟨i, hi⟩ + .ofCt (shift i) :=
      List.getElem_mapIdx
    rw [hrow, PhaseVector.get_add_ofCt hd]

theorem gaps_lengthen (b : Bunch ℝ) (shift : Nat → ℝ) : b.gaps (b.lengthen shift) = (List.range b.size).map shift := by
  refine List.ext_getElem (by simp [gaps, lengthen, size]) fun i hi hi' => ?_
  simp [gaps, lengthen, PhaseVector.add_ofCt]

theorem SameButCt.exists_lengthen {b c : Bunch ℝ} (h : b.SameButCt c) : ∃ shift, c = b.lengthen shift := by
  obtain ⟨momentum, charge, particles⟩ := b
  obtain ⟨momentum', charge', particles'⟩ := c
  obtain ⟨hmomentum, hcharge, hparticles⟩ := h
  dsimp only at hmomentum hcharge hparticles
  subst hmomentum hcharge
  induction hparticles with
  | nil => exact ⟨fun _ => 0, rfl⟩
  | @cons v w rest rest' hv _ ih =>
    obtain ⟨shift, hshift⟩ := ih
    -- the first particle takes the first place among the lengths
    refine ⟨fun i => i.casesOn (w.ct - v.ct) shift, congrArg (Bunch.mk momentum' charge') ?_⟩
    have hw : w = v + .ofCt (w.ct - v.ct) := by
      rw [PhaseVector.add_ofCt, add_sub_cancel]
      exact PhaseVector.ext (hv .x nofun) (hv .xp nofun) (hv .y nofun) (hv .yp nofun) rfl (hv .dp nofun)
    rw [List.mapIdx_cons]
    exact congrArg₂ List.cons hw (congrArg Bunch.particles hshift)

end Bunch

/-- Whatever has been added to path lengths before, the second way does what the first one does, keeps what was added,
and gives all particles one more length. Where the first way is stopped the second one is, too. -/
def Lengthens {ε : Type} (a : ℝ) (way way' : Bunch ℝ → Except ε (Bunch ℝ)) : Prop :=
  ∀ b shift, way' (b.lengthen shift) = Bunch.lengthen (fun i => shift i + a) <$> way b

namespace Lengthens

variable {ε ε' : Type} {a a' : ℝ} {way way' next next' : Bunch ℝ → Except ε (Bunch ℝ)}

theorem refl : Lengthens 0 (.ok : Bunch ℝ → Except ε (Bunch ℝ)) .ok := by
  intro b shift
  simp only [add_zero]
  rfl

theorem map {f : PhaseVector ℝ → PhaseVector ℝ} (h : ∀ v a, f (v + .ofCt a) = f v + .ofCt a) :
    Lengthens 0 (fun b => (.ok (b.mapParticles f) : Except ε (Bunch ℝ))) fun b => .ok (b.mapParticles f) := by
  intro b shift
  have hrefl := refl (ε := ε) (b.mapParticles f) shift
  rwa [← Bunch.mapParticles_lengthen h] at hrefl

theorem bind (h : Lengthens a way way') (h' : Lengthens a' next next') :
    Lengthens (a + a') (fun b => way b >>= next) fun b => way' b >>= next' := by
  intro b shift
  have hnext (b' : Bunch ℝ) : next' (b'.lengthen fun i => shift i + a) =
      Bunch.lengthen (fun i => shift i + (a + a')) <$> next b' := by
    simpa only [add_assoc] using h' b' fun i => shift i + a
  dsimp only
  rw [h b shift, bind_map_left, map_bind]
  exact bind_congr hnext

theorem mapError (h : Lengthens a way way') (f : ε → ε') :
    Lengthens a (fun b => (way b).mapError f) fun b => (way' b).mapError f := by
  intro b shift
  dsimp only
  rw [h b shift]
  cases way b <;> rfl

/-- What comes before the ways and is not about the bunch. -/
theorem lift_bind {β : Type} {r : Except ε β} {ways ways' : β → Bunch ℝ → Except ε (Bunch ℝ)}
    (h : ∀ x, r = .ok x → Lengthens a (ways x) (ways' x)) :
    Lengthens a (fun b => r >>= fun x => ways x b) fun b => r >>= fun x => ways' x b := by
  cases r with
  | error e => exact fun b shift => rfl
  | ok x => exact h x rfl

/-- Two ways that both lengthen a third one differ by the difference. -/
theorem between (h : Lengthens a way way') (h' : Lengthens a' way next) : Lengthens (a' - a) way' next := by
  intro b shift
  have hstart : way' b = Bunch.lengthen (fun _ => a) <$> way b := by
    have hzero := h b fun _ => 0
    simpa only [Bunch.lengthen_zero, zero_add] using hzero
  rw [h' b shift, hstart]
  cases way b with
  | error e => rfl
  | ok b' =>
    refine congrArg Except.ok ((Bunch.lengthen_lengthen b' _ _).trans ?_).symm
    exact congrArg (Bunch.lengthen · b') (funext fun i => by ring)

end Lengthens

/-! ### Processes -/

namespace Radiation

theorem depleted_lengthen (e : Element ℝ) (ds : ℝ) (b : Bunch ℝ) (shift : Nat → ℝ) :
    depleted e ds (b.lengthen shift) = (depleted e ds b).lengthen shift := by
  refine Bunch.mapParticles_lengthen (fun v a => ?_) b shift
  rw [PhaseVector.add_ofCt, PhaseVector.add_ofCt]

/-- The mean momentum knows nothing of path lengths. -/
theorem rereferenced_lengthen (b : Bunch ℝ) (shift : Nat → ℝ) :
    rereferenced (b.lengthen shift) = (rereferenced b).lengthen shift := by
  have hrescale (scale : ℝ) : (b.lengthen shift).mapParticles (rescale scale) =
      (b.mapParticles (rescale scale)).lengthen shift := by
    refine Bunch.mapParticles_lengthen (fun v a => ?_) b shift
    rw [PhaseVector.add_ofCt, PhaseVector.add_ofCt]
    rfl
  rw [rereferenced, Bunch.mean_lengthen, hrescale]
  rfl

theorem radiates_lengthen (e : Element ℝ) (ds : ℝ) (b : Bunch ℝ) (shift : Nat → ℝ) :
    Radiates e ds (b.lengthen shift) ↔ Radiates e ds b := by
  simp only [Radiates, Bunch.lengthen, ne_eq, List.mapIdx_eq_nil_iff]

end Radiation

namespace BeamProcess

/-- A process that rescales the path puts all that it does into path lengths. -/
theorem act_ringDelta (scale : ℝ) (e : Element ℝ) (ds : ℝ) (b : Bunch ℝ) :
    (ringDelta scale).act e ds b = .ok (b.lengthen fun _ => (ringDelta scale).stretch e * ds) := by
  rw [carries_ringDelta, Bunch.mapParticles_lengthening]

/-- No process reads a path length. -/
theorem lengthens_act (p : BeamProcess ℝ) (e : Element ℝ) (ds : ℝ) : Lengthens 0 (p.act e ds) (p.act e ds) := by
  cases p with
  | radiation r =>
    intro b shift
    simp only [add_zero]
    by_cases hradiates : Radiation.Radiates e ds b
    · rw [act, act, Radiation.act_of_radiates hradiates,
        Radiation.act_of_radiates ((Radiation.radiates_lengthen e ds b shift).mpr hradiates)]
      cases r.rereference with
      | true =>
        simp only [if_true, Radiation.depleted_lengthen, Radiation.rereferenced_lengthen]
        rfl
      | false =>
        simp only [Bool.false_eq_true, if_false, Radiation.depleted_lengthen]
        rfl
    · rw [act, act, Radiation.act_of_not_radiates hradiates,
        Radiation.act_of_not_radiates (mt (Radiation.radiates_lengthen e ds b shift).mp hradiates)]
      rfl
  | ringDelta scale =>
    intro b shift
    have hboth : b.lengthen (fun i => shift i + (ringDelta scale).stretch e * ds) =
        (b.lengthen fun _ => (ringDelta scale).stretch e * ds).lengthen shift := by
      rw [Bunch.lengthen_lengthen]
      exact congrArg (Bunch.lengthen · b) (funext fun i => add_comm _ _)
    simp only [add_zero]
    rw [act_ringDelta, act_ringDelta, Bunch.lengthen_lengthen, hboth]
    rfl
  | finiteness detailed =>
    rw [act_finiteness_real]
    exact Lengthens.refl

theorem lengthens_ringDelta (scale : ℝ) (e : Element ℝ) (ds : ℝ) :
    Lengthens ((ringDelta scale).stretch e * ds) .ok ((ringDelta scale).act e ds) := by
  intro b shift
  rw [act_ringDelta, Bunch.lengthen_lengthen]
  rfl

end BeamProcess

/-! ### Elements and lines -/

/-- No map but an explicit one reads a path length. -/
theorem Element.act_add_ofCt {e : Element ℝ} (h : e.optics.explicit = false) {ds : ℝ} {m : TransferMap ℝ}
    (hm : e.transferMap ds = .ok m) (v : PhaseVector ℝ) (a : ℝ) : m.act (v + .ofCt a) = m.act v + .ofCt a := by
  by_cases hkickless : e.optics.kickless = true
  · obtain ⟨maps, hflow, hmaps⟩ := Element.exists_flow hkickless
    obtain rfl := Except.ok.inj ((hmaps ds).symm.trans hm)
    exact hflow.act_add_ofCt ds v a
  · unfold transferMap at hm
    cases hoptics : e.optics with
    | corrector plane built =>
      rw [hoptics] at hm
      obtain rfl := Except.ok.inj hm
      rw [TransferMap.drift_eq_bendFlow, TransferMap.bendFlow_act_add_ofCt]
    | map matrix kick => simp [hoptics, Optics.explicit] at h
    | _ => simp [hoptics, Optics.kickless] at hkickless

namespace BeamProcess

/-- Sorting leaves a process that rescales the path between the others, and sorts these as it does without it. -/
theorem exists_inOrder_ringDelta (scale : ℝ) (front back : List (BeamProcess ℝ)) :
    ∃ front' back', inOrder kind (front ++ back) = front' ++ back' ∧
      inOrder kind (front ++ .ringDelta scale :: back) = front' ++ .ringDelta scale :: back' := by
  have hrest {k : ProcessKind} (hk : (ringDelta scale).kind ≠ k) :
      ofKind kind k (front ++ ringDelta scale :: back) = ofKind kind k (front ++ back) := by
    rw [ofKind_append, ofKind_append, ofKind_cons_of_ne hk]
  have hkind : (ringDelta scale).kind = .ringDelta := rfl
  have hsame : ofKind kind .ringDelta (front ++ ringDelta scale :: back) =
      ofKind kind .ringDelta front ++ ringDelta scale :: ofKind kind .ringDelta back := by
    rw [ofKind_append, ofKind_cons_self hkind]
  refine ⟨ofKind kind .radiation (front ++ back) ++ ofKind kind .ringDelta front,
    ofKind kind .ringDelta back ++ ofKind kind .diagnostic (front ++ back), ?_, ?_⟩
  · simp only [inOrder_eq, ofKind_append .ringDelta front back, List.append_assoc]
  · have hradiation := hrest (k := .radiation) nofun
    have hdiagnostic := hrest (k := .diagnostic) nofun
    simp only [inOrder_eq, hradiation, hsame, hdiagnostic, List.append_assoc, List.cons_append]

end BeamProcess

namespace Pass

variable {processes processes' : List (BeamProcess ℝ)} {e : Element ℝ} {ds a : ℝ}

theorem lengthens_applyAll (processes : List (BeamProcess ℝ)) (e : Element ℝ) (ds : ℝ) :
    Lengthens 0 (applyAll e ds processes).reach (applyAll e ds processes).reach := by
  induction processes with
  | nil => exact Lengthens.refl
  | cons p rest ih =>
    have hboth := (p.lengthens_act e ds).bind ih
    rwa [add_zero, ← funext (reach_applyAll_cons e ds p rest)] at hboth

theorem lengthens_applyAll_insert (scale : ℝ) (e : Element ℝ) (ds : ℝ) (front back : List (BeamProcess ℝ)) :
    Lengthens ((BeamProcess.ringDelta scale).stretch e * ds) (applyAll e ds (front ++ back)).reach
      (applyAll e ds (front ++ .ringDelta scale :: back)).reach := by
  induction front with
  | nil =>
    have hboth := (BeamProcess.lengthens_ringDelta scale e ds).bind (lengthens_applyAll back e ds)
    rwa [add_zero, ← funext (reach_applyAll_cons e ds _ back)] at hboth
  | cons p rest ih =>
    have hboth := (p.lengthens_act e ds).bind ih
    rwa [zero_add, ← funext (reach_applyAll_cons e ds p _), ← funext (reach_applyAll_cons e ds p _)] at hboth

theorem lengthens_slices {m : TransferMap ℝ} {kick : PhaseVector ℝ}
    (hmap : ∀ v a, m.act (v + .ofCt a) = m.act v + .ofCt a)
    (happly : Lengthens a (applyAll e ds processes).reach (applyAll e ds processes').reach) (n : Nat) :
    Lengthens (n * a) (slices processes e m kick ds n).reach (slices processes' e m kick ds n).reach := by
  have hkick (v : PhaseVector ℝ) (a : ℝ) : m.act (v + .ofCt a) + kick = m.act v + kick + .ofCt a := by
    apply PhaseVector.ext_get
    intro c
    simp only [hmap, PhaseVector.get_add]
    exact add_right_comm _ _ _
  have hslice : Lengthens (0 + a) (slice processes e m kick ds).reach (slice processes' e m kick ds).reach :=
    (Lengthens.map (ε := Fault) hkick).bind happly
  rw [zero_add] at hslice
  induction n with
  | zero =>
    rw [Nat.cast_zero, zero_mul]
    exact Lengthens.refl
  | succ n ih =>
    have hboth := hslice.bind ih
    have hsum : a + n * a = (n + 1 : Nat) * a := by
      push_cast
      ring
    rw [hsum] at hboth
    intro b shift
    rw [slices, slices, Action.reach_bind, Action.reach_bind]
    exact hboth b shift

/-- However an element is sliced, what its processes add to path lengths adds up to the same over its length. -/
theorem lengthens_through {stretch : ℝ} (hexplicit : e.optics.explicit = false)
    (hcount : stepCount processes' e = stepCount processes e)
    (happly : ∀ ds, Lengthens (stretch * ds) (applyAll e ds (BeamProcess.inOrder BeamProcess.kind processes)).reach
      (applyAll e ds (BeamProcess.inOrder BeamProcess.kind processes')).reach) (signals : Signals ℝ) :
    Lengthens (stretch * e.length) (through processes signals e) (through processes' signals e) := by
  rw [funext (through_eq processes signals e), funext (through_eq processes' signals e), hcount]
  refine Lengthens.lift_bind fun n _ => Lengthens.lift_bind fun ds hds => Lengthens.lift_bind fun m hm => ?_
  replace hds := mapError_eq_ok_iff.mp hds
  have hn := Scalar.ne_zero_of_overCount hds
  have hwhole : n * (stretch * ds) = stretch * e.length := by
    rw [Scalar.eq_of_overCount_real hds, mul_left_comm, mul_div_cancel₀ _ (Nat.cast_ne_zero.mpr hn)]
  rw [← hwhole]
  exact lengthens_slices (Element.act_add_ofCt hexplicit (mapError_eq_ok_iff.mp hm)) (happly ds) n

/-- One step more is no demand where there is one already. -/
theorem stepCount_cons_of_one {p : BeamProcess ℝ} (hone : p.requestedSteps e = .ok 1) {n : Nat} (hn : n ≠ 0)
    (hcount : stepCount processes e = .ok n) : stepCount (p :: processes) e = .ok n := by
  cases hsliceable : e.sliceable with
  | false => rwa [stepCount_of_not_sliceable hsliceable] at hcount ⊢
  | true =>
    rw [stepCount_cons hsliceable, mostSteps, hone]
    cases processes with
    | nil =>
      rw [stepCount_nil] at hcount
      exact hcount
    | cons q rest =>
      rw [stepCount_cons hsliceable] at hcount
      rw [hcount]
      exact congrArg Except.ok (Nat.max_eq_right (Nat.one_le_iff_ne_zero.mpr hn))

/-- Among processes that ask for steps themselves, the one for the path length has no say in their count. -/
theorem stepCount_insert {front back : List (BeamProcess ℝ)} (hset : ∀ p ∈ front ++ back, p.IsSet) (scale : ℝ)
    (e : Element ℝ) : stepCount (front ++ .ringDelta scale :: back) e = stepCount (front ++ back) e := by
  obtain ⟨n, hn, hcount⟩ :=
    exists_stepCount_of_requests fun p hp => BeamProcess.exists_requestedSteps (hset p hp) e
  have hfirst : stepCount (.ringDelta scale :: (front ++ back)) e = .ok n := stepCount_cons_of_one rfl hn hcount
  have hplace : (stepCount (front ++ .ringDelta scale :: back) e).toOption =
      (stepCount (.ringDelta scale :: (front ++ back)) e).toOption := toOption_stepCount_perm List.perm_middle e
  rw [hfirst] at hplace
  rw [hcount]
  exact toOption_eq_some_iff.mp hplace

theorem lengthens_along {stretch : Element ℝ → ℝ} {signals : Signals ℝ} {elements : List (Element ℝ)}
    (h : ∀ e ∈ elements,
      Lengthens (stretch e * e.length) (through processes signals e) (through processes' signals e)) (index : Nat) :
    Lengthens (elements.map fun e => stretch e * e.length).sum (along processes signals index elements)
      (along processes' signals index elements) := by
  induction elements generalizing index with
  | nil => exact Lengthens.refl
  | cons e rest ih =>
    have hfirst := (h e List.mem_cons_self).mapError fun fault => (index, fault)
    exact hfirst.bind (ih (fun f hf => h f (List.mem_cons_of_mem e hf)) (index + 1))

end Pass

namespace Range

/-- The lengths of the bends of a range, all together. -/
def bendLength {α : Type} [Scalar α] (r : Range α) : α := Element.totalLength (r.elements.filter (·.isBend))

theorem sum_stretch (scale : ℝ) (r : Range ℝ) :
    (r.elements.map fun e => (BeamProcess.ringDelta scale).stretch e * e.length).sum = -scale * r.bendLength := by
  rw [bendLength, Element.totalLength, Scalar.sum_real]
  induction r.elements with
  | nil => simp
  | cons e rest ih =>
    rw [List.map_cons, List.sum_cons, ih, BeamProcess.stretch]
    cases hbend : e.isBend with
    | true =>
      rw [List.filter_cons_of_pos hbend, List.map_cons, List.sum_cons, mul_add]
      rfl
    | false =>
      rw [List.filter_cons_of_neg (by simp [hbend])]
      simp

variable {r : Range ℝ}

/-- Path lengths that particles bring along are behind a range what they were before it, whatever happens there. -/
theorem lengthens_transport (himplicit : ∀ e ∈ r.elements, e.optics.explicit = false)
    (processes : List (BeamProcess ℝ)) (signals : Signals ℝ) :
    Lengthens 0 (r.transport processes signals) (r.transport processes signals) := by
  have helement : ∀ e ∈ r.elements, Lengthens (0 * e.length) (Pass.through processes signals e)
      (Pass.through processes signals e) := by
    intro e he
    refine Pass.lengthens_through (himplicit e he) rfl (fun ds => ?_) signals
    rw [zero_mul]
    exact Pass.lengthens_applyAll _ e ds
  have hsum : (r.elements.map fun e => 0 * e.length).sum = 0 := by simp
  rw [← hsum]
  exact (Pass.lengthens_along helement r.first).mapError surface

/-- A process that rescales the path in bends lengthens it by the same for all particles, and does nothing else. -/
theorem lengthens_transport_insert {scale : ℝ} {front back : List (BeamProcess ℝ)}
    (himplicit : ∀ e ∈ r.elements, e.optics.explicit = false)
    (hcount : ∀ e ∈ r.elements, Pass.stepCount (front ++ .ringDelta scale :: back) e = Pass.stepCount (front ++ back) e)
    (signals : Signals ℝ) :
    Lengthens (-scale * r.bendLength) (r.transport (front ++ back) signals)
      (r.transport (front ++ .ringDelta scale :: back) signals) := by
  rw [← sum_stretch]
  refine (Pass.lengthens_along (fun e he => ?_) r.first).mapError surface
  refine Pass.lengthens_through (himplicit e he) (hcount e he) (fun ds => ?_) signals
  obtain ⟨front', back', hwithout, hwith⟩ := BeamProcess.exists_inOrder_ringDelta scale front back
  rw [hwithout, hwith]
  exact Pass.lengthens_applyAll_insert scale e ds front' back'

end Range

namespace Station

variable {s : Station ℝ} {r : Range ℝ}

theorem lengthens_tracked (hrange : s.tracker.range = some r) (himplicit : ∀ e ∈ r.elements, e.optics.explicit = false) :
    Lengthens 0 s.tracked s.tracked := by
  have htracked : s.tracked = s.transport r := funext (outcome_trackBunch hrange)
  rw [htracked]
  exact Range.lengthens_transport himplicit _ _

theorem lengthens_tracked_attach {number : Nat} {scale : ℝ} (hrange : s.tracker.range = some r)
    (himplicit : ∀ e ∈ r.elements, e.optics.explicit = false)
    (hnumber : s.plant.processes.get? number = some (.ringDelta scale))
    (hcount : ∀ e ∈ r.elements, Pass.stepCount (s.plant.processesOf s.tracker.processes ++ [.ringDelta scale]) e =
      Pass.stepCount (s.plant.processesOf s.tracker.processes) e) :
    Lengthens (-scale * r.bendLength) s.tracked ((attach number).run s).2.tracked := by
  obtain ⟨s', hattach, hplant, htracker⟩ := run_attach number s
  have hrange' : s'.tracker.range = some r := by rw [htracker, ← hrange]
  have htracked : s.tracked = s.transport r := funext (outcome_trackBunch hrange)
  have htracked' : s'.tracked = s'.transport r := funext (outcome_trackBunch hrange')
  have hstrengths := congrArg Prod.fst (Plant.fixtures_of_unlogged hplant)
  rw [hattach, htracked, htracked', transport, transport, processesOf_attach htracker hplant hnumber,
    Range.transport_congr_strengths _ hstrengths]
  have hlast : ∀ e ∈ r.elements,
      Pass.stepCount (s.plant.processesOf s.tracker.processes ++ .ringDelta scale :: []) e =
        Pass.stepCount (s.plant.processesOf s.tracker.processes ++ []) e := by
    simpa using hcount
  have hinserted := Range.lengthens_transport_insert himplicit hlast s.plant.signals
  rwa [List.append_nil] at hinserted

end Station

end BeamOptics
