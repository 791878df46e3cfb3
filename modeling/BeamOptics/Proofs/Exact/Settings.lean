import BeamOptics.Proofs.Exact.Turn

/-!
# Settings of processes

A radiation process can be set up in several ways, and each of them leaves it with a count of steps to ask for. Outside
bends this wish is all that comes of any process.
-/

namespace BeamOptics

/-! ### Counts of steps -/

namespace Binary

/-- Cut to a whole number, a value that is not below one is still not below it. -/
theorem one_le_truncate {negative : Bool} {mantissa : Nat} {exponent : Int}
    (h : compareInt (finite negative mantissa exponent) 1 ≠ some .lt) : 1 ≤ truncate negative mantissa exponent := by
  obtain ⟨n, d, hquotient, hd⟩ : ∃ n d, quotient mantissa exponent = (n, d) ∧ 0 < d := by
    unfold quotient
    split
    · exact ⟨_, _, rfl, one_pos⟩
    · exact ⟨_, _, rfl, Nat.two_pow_pos _⟩
  rw [compareInt, hquotient] at h
  have hle := not_lt.mp fun hlt => h (congrArg some (compare_lt_iff_lt.mpr hlt))
  rw [truncate, hquotient]
  cases negative with
  | true =>
    simp only [if_true, one_mul] at hle
    omega
  | false =>
    simp only [Bool.false_eq_true, if_false, one_mul, Int.ofNat_le] at hle ⊢
    exact_mod_cast (Nat.one_le_div_iff hd).mpr hle

end Binary

/-- A whole value that is not below one is at least one. -/
theorem Datum.one_le_of_whole? {d : Datum} {i : Int} (hguard : d.relate .less (.int 1) = .ok false)
    (h : d.whole? = some i) : 1 ≤ i := by
  cases d with
  | bool b =>
    cases b with
    | true =>
      obtain rfl := Option.some.inj h
      exact le_rfl
    | false => cases hguard
  | int k =>
    obtain rfl := Option.some.inj h
    have hnot : Relation.less.holds (some (compare k 1)) = false := Except.ok.inj hguard
    exact not_lt.mp fun hlt => beq_eq_false_iff_ne.mp hnot (congrArg some (compare_lt_iff_lt.mpr hlt))
  | float x =>
    have hnot : Relation.less.holds (Binary.compareInt (.ofFloat x) 1) = false := Except.ok.inj hguard
    cases hx : Binary.ofFloat x with
    | nan => simp [whole?, hx] at h
    | infinite negative => simp [whole?, hx] at h
    | finite negative mantissa exponent =>
      rw [hx] at hnot
      simp only [whole?, hx] at h
      split at h
      · obtain rfl := Option.some.inj h
        exact Binary.one_le_truncate (beq_eq_false_iff_ne.mp hnot)
      · cases h
  | _ => cases hguard

namespace Radiation

theorem one_le_countOf {d : Datum} {n : Nat} (h : countOf d = .ok n) : 1 ≤ n := by
  unfold countOf at h
  obtain ⟨few, hfew, h⟩ := bind_eq_ok_iff.mp h
  have hrelate := mapError_eq_ok_iff.mp hfew
  cases few with
  | true => cases h
  | false =>
    have hwhole {i : Int} (hi : d.whole? = some i) : 1 ≤ i.toNat :=
      Int.toNat_le_toNat (Datum.one_le_of_whole? hrelate hi)
    cases d with
    | float x =>
      have hnot : Datum.Relation.less.holds (Binary.compareInt (.ofFloat x) 1) = false := Except.ok.inj hrelate
      simp only [Bool.false_eq_true, if_false] at h
      cases hx : Binary.ofFloat x with
      | nan =>
        rw [hx] at h
        cases h
      | infinite negative =>
        rw [hx] at h
        cases h
      | finite negative mantissa exponent =>
        rw [hx] at h hnot
        obtain rfl := Except.ok.inj h
        have htruncate := Binary.one_le_truncate (beq_eq_false_iff_ne.mp hnot)
        omega
    | int i =>
      obtain rfl := Except.ok.inj h
      exact hwhole rfl
    | bool b =>
      obtain rfl := Except.ok.inj h
      exact hwhole rfl
    | _ => cases hrelate

/-- Settings that ask for steps: a maximum step above zero, or a count. -/
def IsSet (r : Radiation ℝ) : Prop := 0 < r.maxStep ∨ 1 ≤ r.steps

theorem isSet_of_setSteps {r r' : Radiation ℝ} {count : Datum} (h : r.setSteps count = .ok r') : r'.IsSet := by
  obtain ⟨steps, hsteps, h⟩ := bind_eq_ok_iff.mp h
  obtain rfl := Except.ok.inj h
  exact .inr (one_le_countOf hsteps)

theorem isSet_of_setMaxStep {r r' : Radiation ℝ} {size : ℝ} (h : r.setMaxStep size = .ok r') : r'.IsSet := by
  rw [setMaxStep, Scalar.le_real] at h
  by_cases hsize : size ≤ 0
  · rw [decide_eq_true hsize] at h
    cases h
  · rw [decide_eq_false hsize] at h
    obtain rfl := Except.ok.inj h
    exact .inl (not_le.mp hsize)

theorem isSet_of_build {count : Datum} {size : ℝ} {rereference : Bool} {r : Radiation ℝ}
    (h : build count size rereference = .ok r) : r.IsSet := by
  unfold build at h
  split at h
  · exact isSet_of_setMaxStep h
  · exact isSet_of_setSteps h

theorem exists_requestedSteps {r : Radiation ℝ} (h : r.IsSet) (length : ℝ) :
    ∃ n, 1 ≤ n ∧ r.requestedSteps length = .ok n := by
  rw [requestedSteps, Scalar.lt_real]
  by_cases hsize : 0 < r.maxStep
  · rw [decide_eq_true hsize]
    exact ⟨_, le_max_left _ _, rfl⟩
  · rw [decide_eq_false hsize]
    exact ⟨r.steps, h.resolve_left hsize, rfl⟩

theorem requestedSteps_fixedSteps (r : Radiation ℝ) (steps : Nat) (length : ℝ) :
    (r.fixedSteps steps).requestedSteps length = .ok steps := by
  have hsize : Scalar.lt 0 (r.fixedSteps steps).maxStep = false := decide_eq_false (lt_irrefl _)
  rw [requestedSteps, hsize]
  rfl

end Radiation

namespace BeamProcess

/-- Settings of a process that ask for steps. -/
def IsSet : BeamProcess ℝ → Prop
  | radiation r => r.IsSet
  | _ => True

theorem exists_requestedSteps {p : BeamProcess ℝ} (h : p.IsSet) (e : Element ℝ) :
    ∃ n, 1 ≤ n ∧ p.requestedSteps e = .ok n := by
  cases p with
  | radiation r =>
    obtain ⟨n, hn, hsteps⟩ := Radiation.exists_requestedSteps h e.length
    refine ⟨n, hn, ?_⟩
    rw [requestedSteps, hsteps]
    rfl
  | ringDelta scale => exact ⟨1, le_rfl, rfl⟩
  | finiteness detailed => exact ⟨1, le_rfl, rfl⟩

/-- No process stops a bunch. -/
theorem exists_act (p : BeamProcess ℝ) (e : Element ℝ) (ds : ℝ) (b : Bunch ℝ) : ∃ b', p.act e ds b = .ok b' := by
  cases p with
  | radiation r =>
    rw [act, Radiation.act]
    split <;> exact ⟨_, rfl⟩
  | ringDelta scale =>
    rw [act]
    split <;> exact ⟨_, rfl⟩
  | finiteness detailed => exact ⟨b, by rw [act_finiteness_real]⟩

/-- Outside bends no process is more than a wish for steps. -/
theorem onlySlices_of_isSet {p : BeamProcess ℝ} (h : p.IsSet) {e : Element ℝ} (hbend : e.isBend = false) :
    p.OnlySlices e := by
  refine ⟨fun ds b => ?_, exists_requestedSteps h e⟩
  cases p with
  | radiation r =>
    rw [act, Radiation.act, hbend]
    rfl
  | ringDelta scale =>
    rw [act, hbend]
    rfl
  | finiteness detailed => rw [act_finiteness_real]

theorem isMild_of_isSet {p : BeamProcess ℝ} (h : p.IsSet) {e : Element ℝ} (hbend : e.isBend = false) : p.IsMild e :=
  .inr (onlySlices_of_isSet h hbend)

end BeamProcess

namespace Pass

theorem exists_applyAll (processes : List (BeamProcess ℝ)) (e : Element ℝ) (ds : ℝ) (b : Bunch ℝ) :
    ∃ b', (applyAll e ds processes).reach b = .ok b' := by
  induction processes generalizing b with
  | nil => exact ⟨b, rfl⟩
  | cons p rest ih =>
    obtain ⟨b₁, hact⟩ := p.exists_act e ds b
    obtain ⟨b₂, hrest⟩ := ih b₁
    refine ⟨b₂, ?_⟩
    rw [reach_applyAll_cons, hact]
    exact hrest

theorem exists_slices (processes : List (BeamProcess ℝ)) (e : Element ℝ) (m : TransferMap ℝ) (kick : PhaseVector ℝ)
    (ds : ℝ) (n : Nat) (b : Bunch ℝ) : ∃ b', (slices processes e m kick ds n).reach b = .ok b' := by
  induction n generalizing b with
  | zero => exact ⟨b, rfl⟩
  | succ n ih =>
    obtain ⟨b₁, hslice⟩ : ∃ b₁, (slice processes e m kick ds).reach b = .ok b₁ := exists_applyAll processes e ds _
    obtain ⟨b₂, hrest⟩ := ih b₁
    refine ⟨b₂, ?_⟩
    rw [slices, Action.reach_bind, hslice]
    exact hrest

/-- Next to no other process, radiation in a fixed count of steps has its way. -/
theorem stepCount_fixedSteps (r : Radiation ℝ) (steps : Nat) {e : Element ℝ} (h : e.sliceable = true) :
    stepCount [.radiation (r.fixedSteps steps)] e = .ok steps := by
  have hasked : (BeamProcess.radiation (r.fixedSteps steps)).requestedSteps e = .ok steps := by
    rw [BeamProcess.requestedSteps, Radiation.requestedSteps_fixedSteps]
    rfl
  rw [stepCount, if_pos h]
  simp only [List.mapM_cons, hasked]
  exact congrArg Except.ok (Nat.zero_max steps)

variable {processes : List (BeamProcess ℝ)}

/-- In exact arithmetic nothing stops a bunch in an element as long as the processes ask for steps at all. -/
theorem exists_through (hset : ∀ p ∈ processes, p.IsSet) (signals : Signals ℝ) (e : Element ℝ) (b : Bunch ℝ) :
    ∃ b', through processes signals e b = .ok b' := by
  obtain ⟨n, hn, hcount⟩ :=
    exists_stepCount_of_requests fun p hp => BeamProcess.exists_requestedSteps (hset p hp) e
  obtain ⟨m, hm⟩ := e.exists_transferMap (e.length / n)
  rw [through_eq_inSlices hcount, inSlices_eq_reach (Scalar.overCount_real hn e.length) hm]
  exact exists_slices _ e m _ _ n b

theorem exists_along (hset : ∀ p ∈ processes, p.IsSet) (signals : Signals ℝ) (index : Nat)
    (elements : List (Element ℝ)) (b : Bunch ℝ) : ∃ b', along processes signals index elements b = .ok b' := by
  induction elements generalizing index b with
  | nil => exact ⟨b, rfl⟩
  | cons e rest ih =>
    obtain ⟨b₁, hthrough⟩ := exists_through hset signals e b
    obtain ⟨b₂, hrest⟩ := ih (index + 1) b₁
    refine ⟨b₂, ?_⟩
    rw [along, hthrough]
    exact hrest

end Pass

end BeamOptics
