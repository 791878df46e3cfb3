import BeamOptics.ClosedOrbit.Setting
import BeamOptics.Proofs.Scalar.Wholes
import BeamOptics.Proofs.Tracking.StepCounts

/-!
# Settings of a search

Settings are valid when they stand within their bounds and give one rule for radiation steps, a count or a length. A
value that a setter takes keeps them valid, since the guard of the setter is closed to what the rule of its field lets
through besides. A setter that assigns two fields cannot stop between them: the second value is always taken.
-/

namespace BeamOptics

/-! ### Rules and forms -/

theorem Rule.only_eq_ok_iff {β : Type} {rule : Rule β} {holds : β → Bool} {kind : IssueKind} {d : Datum} {b : β} :
    rule.only holds kind d = .ok b ↔ rule d = .ok b ∧ holds b = true := by
  unfold Rule.only
  constructor
  · intro h
    obtain ⟨b', hb', h⟩ := bind_eq_ok_iff.mp h
    by_cases hholds : holds b' = true
    · rw [if_pos hholds] at h
      obtain rfl := Except.ok.inj h
      exact ⟨hb', hholds⟩
    · rw [if_neg hholds] at h
      cases h
  · rintro ⟨hb, hholds⟩
    refine bind_eq_ok_iff.mpr ⟨b, hb, ?_⟩
    rw [if_pos hholds]
    rfl

/-- A float is read as a whole number if it is one and fits into a word. -/
theorem Rule.wholeOf_eq_ok_iff {x : Float} {n : Int} :
    wholeOf x = .ok n ↔
      x.isFinite = true ∧ (Datum.float x).whole? = some n ∧ -wordLimit < n ∧ n < wordLimit := by
  unfold wholeOf
  cases x.isFinite with
  | false => exact iff_of_false nofun fun h => nomatch h.1
  | true =>
    cases hwhole : (Datum.float x).whole? with
    | none => exact iff_of_false nofun fun h => nomatch h.2.1
    | some i =>
      rw [if_pos rfl]
      simp only [Bool.and_eq_true, decide_eq_true_eq]
      by_cases hword : -wordLimit < i ∧ i < wordLimit
      · rw [if_pos hword]
        constructor
        · intro h
          obtain rfl := Except.ok.inj h
          exact ⟨trivial, rfl, hword⟩
        · rintro ⟨-, h, -⟩
          rw [Option.some.inj h]
      · rw [if_neg hword]
        refine iff_of_false nofun ?_
        rintro ⟨-, h, hn⟩
        obtain rfl := Option.some.inj h
        exact hword hn

/-- A field is assigned what its rule makes of a value. -/
theorem Form.assign_eq_ok_iff {τ β : Type} {form : Form τ τ} {name : String} {required : Bool} {rule : Rule β}
    {put : β → τ → τ} {t t' : τ} {d : Datum}
    (hfield : form.fields.find? (·.name == name) = some (.of name required rule put)) :
    form.assign t name d = .ok t' ↔ ∃ b, rule d = .ok b ∧ put b t = t' := by
  unfold Form.assign
  rw [hfield]
  dsimp only [Field.of]
  cases hrule : rule d with
  | ok b => simp [Except.map]
  | error refusal => cases refusal <;> simp [Except.map]

namespace OrbitConfig

/-! ### Valid settings -/

/-- Radiation steps go by a count. -/
def CountsSteps (c : OrbitConfig Float) : Prop := 1 ≤ c.radiationSteps ∧ c.radiationStepSize = 0

/-- Radiation steps go by a length. -/
def LimitsSteps (c : OrbitConfig Float) : Prop := Scalar.lt 0 c.radiationStepSize = true ∧ c.radiationSteps = 0

structure Valid (c : OrbitConfig Float) : Prop where
  delta : Scalar.lt 0 c.delta = true
  tolerance : Scalar.lt 0 c.tolerance = true
  maxIterations : 1 ≤ c.maxIterations
  threshold : Scalar.le 0 c.svdThreshold = true ∧ Scalar.lt c.svdThreshold 1 = true
  steps : Xor c.CountsSteps c.LimitsSteps

variable {c c' : OrbitConfig Float} {d : Datum}

theorem CountsSteps.xor (h : c.CountsSteps) : Xor c.CountsSteps c.LimitsSteps := by
  refine .inl ⟨h, fun hlimits => ?_⟩
  have hcount := h.1
  have hnone := hlimits.2
  omega

theorem LimitsSteps.xor (h : c.LimitsSteps) : Xor c.CountsSteps c.LimitsSteps := by
  refine .inr ⟨h, fun hcounts => ?_⟩
  have hcount := hcounts.1
  have hnone := h.2
  omega

theorem valid_standard : standard.Valid where
  delta := by decide +kernel
  tolerance := by decide +kernel
  maxIterations := by decide
  threshold := by decide +kernel
  steps := CountsSteps.xor ⟨by decide, rfl⟩

/-! ### Guards -/

/-- A count that passes the guard is read as a whole number of at least one. -/
theorem one_le_of_compare {n : Int} (hguard : compare .less d 1 = .ok false) (hn : Rule.int d = .ok n) : 1 ≤ n := by
  have hrelate := mapError_eq_ok_iff.mp hguard
  refine Datum.one_le_of_whole? hrelate ?_
  cases d with
  | bool b => exact congrArg some (Except.ok.inj hn)
  | int i => exact congrArg some (Except.ok.inj hn)
  | float x => exact (Rule.wholeOf_eq_ok_iff.mp hn).2.1
  | _ => cases hrelate

theorem zero_lt_of_compare {x : Float} (hguard : compare .lessEqual d 0 = .ok false) (hx : nonNegative d = .ok x) :
    Scalar.lt 0 x = true := by
  have hrelate := mapError_eq_ok_iff.mp hguard
  obtain ⟨hx, hle⟩ := Rule.only_eq_ok_iff.mp hx
  cases d with
  | bool b =>
    obtain rfl := Except.ok.inj hx
    cases b with
    | true => decide +kernel
    | false => cases hrelate
  | int i =>
    have hnot : Datum.Relation.lessEqual.holds (some (Ord.compare i 0)) = false := Except.ok.inj hrelate
    have hpos : 0 < i := by
      rcases lt_trichotomy i 0 with hlt | rfl | hgt
      · rw [compare_lt_iff_lt.mpr hlt] at hnot
        cases hnot
      · cases hnot
      · exact hgt
    change (if (Decimal.ofInt i).isFinite then .ok (Decimal.ofInt i) else Rule.refuse .floatType) = .ok x at hx
    split at hx
    · obtain rfl := Except.ok.inj hx
      exact Decimal.zero_lt_ofInt hpos
    · cases hx
  | float y =>
    obtain rfl := Except.ok.inj hx
    have hnot : Datum.Relation.lessEqual.holds (Binary.compareInt (.ofFloat y) 0) = false := Except.ok.inj hrelate
    refine Double.zero_lt_of_compareInt hle fun heq => ?_
    rw [heq] at hnot
    cases hnot
  | _ => cases hrelate

/-! ### Changes -/

theorem valid_change {setting : OrbitSetting} (h : c.Valid) (hchange : c.change setting d = .ok c') : c'.Valid := by
  cases setting with
  | transverseOnly =>
    change form.assign c "transverse_only" d = .ok c' at hchange
    obtain ⟨b, -, rfl⟩ := (Form.assign_eq_ok_iff rfl).mp hchange
    exact { h with }
  | radiation =>
    obtain ⟨c₁, hassign, hchange⟩ := bind_eq_ok_iff.mp hchange
    obtain ⟨b, -, rfl⟩ := (Form.assign_eq_ok_iff rfl).mp hassign
    obtain rfl := Except.ok.inj hchange
    by_cases htrue : d.isTrue = true
    · rw [if_pos htrue]
      exact { h with steps := CountsSteps.xor ⟨le_rfl, rfl⟩ }
    · rw [if_neg htrue]
      exact { h with }
  | fullAcceleration =>
    change form.assign c "full_acceleration" d = .ok c' at hchange
    obtain ⟨b, -, rfl⟩ := (Form.assign_eq_ok_iff rfl).mp hchange
    exact { h with }
  | delta =>
    change form.assign c "delta" d = .ok c' at hchange
    obtain ⟨x, hx, rfl⟩ := (Form.assign_eq_ok_iff rfl).mp hchange
    exact { h with delta := (Rule.only_eq_ok_iff.mp hx).2 }
  | tolerance =>
    change form.assign c "tolerance" d = .ok c' at hchange
    obtain ⟨x, hx, rfl⟩ := (Form.assign_eq_ok_iff rfl).mp hchange
    exact { h with tolerance := (Rule.only_eq_ok_iff.mp hx).2 }
  | maxIterations =>
    change form.assign c "max_iterations" d = .ok c' at hchange
    obtain ⟨n, hn, rfl⟩ := (Form.assign_eq_ok_iff rfl).mp hchange
    exact { h with maxIterations := of_decide_eq_true (Rule.only_eq_ok_iff.mp hn).2 }
  | radiationStepSize =>
    obtain ⟨few, hguard, hchange⟩ := bind_eq_ok_iff.mp hchange
    cases few with
    | true => cases hchange
    | false =>
      obtain ⟨c₁, hassign, hchange⟩ := bind_eq_ok_iff.mp hchange
      obtain ⟨x, hx, rfl⟩ := (Form.assign_eq_ok_iff rfl).mp hassign
      obtain rfl := Except.ok.inj hchange
      exact { h with steps := LimitsSteps.xor ⟨zero_lt_of_compare hguard hx, rfl⟩ }
  | radiationSteps =>
    obtain ⟨few, hguard, hchange⟩ := bind_eq_ok_iff.mp hchange
    cases few with
    | true => cases hchange
    | false =>
      obtain ⟨c₁, hassign, hchange⟩ := bind_eq_ok_iff.mp hchange
      obtain ⟨n, hn, rfl⟩ := (Form.assign_eq_ok_iff rfl).mp hassign
      obtain rfl := Except.ok.inj hchange
      exact { h with steps := CountsSteps.xor ⟨one_le_of_compare hguard (Rule.only_eq_ok_iff.mp hn).1, rfl⟩ }
  | bendScale =>
    change form.assign c "bend_scale" d = .ok c' at hchange
    obtain ⟨x, -, rfl⟩ := (Form.assign_eq_ok_iff rfl).mp hchange
    exact { h with }

/-! ### Assignments one by one -/

/-- A refused value leaves the settings as they are. -/
def assignment (field : String) (d : Datum) : Action Fault (OrbitConfig Float) Unit := do
  let c ← get
  let c ← Action.lift (form.assign c field d)
  set c

/-- Behind a guard, one field is assigned and then the other one is reset. -/
def exchange (refused : Except Fault Bool) (fault : Fault) (field : String) (d : Datum) (other : String)
    (zero : Datum) : Action Fault (OrbitConfig Float) Unit := do
  if ← Action.lift refused then throw fault
  assignment field d
  assignment other zero

def countSteps (d : Datum) : Action Fault (OrbitConfig Float) Unit :=
  exchange (compare .less d 1) .radiationSteps "rad_num_steps" d "rad_step_size" (.float 0)

/-- A setter that makes its assignments one after the other. -/
def setter : OrbitSetting → Datum → Action Fault (OrbitConfig Float) Unit
  | .radiation, d => do
    assignment "radiation" d
    if d.isTrue then countSteps (.int 1)
  | .radiationStepSize, d =>
    exchange (compare .lessEqual d 0) .radiationStepSize "rad_step_size" d "rad_num_steps" (.int 0)
  | .radiationSteps, d => countSteps d
  | setting, d => assignment setting.field d

/-- The outcome of a change, and the settings that it leaves. -/
def settled (c : OrbitConfig Float) : Except Fault (OrbitConfig Float) → Except Fault Unit × OrbitConfig Float
  | .ok c' => (.ok (), c')
  | .error fault => (.error fault, c)

theorem run_assignment (c : OrbitConfig Float) (field : String) (d : Datum) :
    (assignment field d).run c = c.settled (form.assign c field d) := by
  rw [assignment, Action.run_get_bind]
  cases form.assign c field d <;> rfl

theorem run_assignment_bind (c : OrbitConfig Float) (field : String) (d : Datum)
    (next : Unit → Action Fault (OrbitConfig Float) Unit) :
    (assignment field d >>= next).run c =
      match form.assign c field d with
      | .ok c' => (next ()).run c'
      | .error fault => (.error fault, c) := by
  rw [Action.run_bind, run_assignment]
  cases form.assign c field d <;> rfl

theorem assign_size_zero (c : OrbitConfig Float) :
    form.assign c "rad_step_size" (.float 0) = .ok { c with radiationStepSize := 0 } := by
  refine (Form.assign_eq_ok_iff rfl).mpr ⟨0, Rule.only_eq_ok_iff.mpr ⟨rfl, ?_⟩, rfl⟩
  decide +kernel

theorem assign_count_zero (c : OrbitConfig Float) :
    form.assign c "rad_num_steps" (.int 0) = .ok { c with radiationSteps := 0 } :=
  (Form.assign_eq_ok_iff rfl).mpr ⟨0, rfl, rfl⟩

/-- Where the other field can be reset in any case, both assignments are made or none. -/
theorem run_exchange {reset : OrbitConfig Float → OrbitConfig Float} {other : String} {zero : Datum}
    (hreset : ∀ c, form.assign c other zero = .ok (reset c)) (refused : Except Fault Bool) (fault : Fault)
    (field : String) (d : Datum) (c : OrbitConfig Float) :
    (exchange refused fault field d other zero).run c = c.settled (do
      if ← refused then throw fault
      let c ← form.assign c field d
      pure (reset c)) := by
  unfold exchange
  rcases refused with fault' | few
  · rfl
  · cases few with
    | true => rfl
    | false =>
      refine (run_assignment_bind c field d _).trans ?_
      change _ = c.settled (form.assign c field d >>= fun c₁ => pure (reset c₁))
      cases form.assign c field d with
      | error fault' => rfl
      | ok c₁ => exact (run_assignment c₁ other zero).trans (congrArg c₁.settled (hreset c₁))

theorem run_countSteps (c : OrbitConfig Float) (d : Datum) :
    (countSteps d).run c = c.settled (c.change .radiationSteps d) :=
  run_exchange assign_size_zero _ _ _ d c

/-- A setter does all of its assignments or none. -/
theorem run_setter (c : OrbitConfig Float) (setting : OrbitSetting) (d : Datum) :
    (setter setting d).run c = c.settled (c.change setting d) := by
  cases setting with
  | radiation =>
    refine (run_assignment_bind c _ d _).trans ?_
    change _ = c.settled (form.assign c "radiation" d >>= fun c₁ => pure (if d.isTrue then c₁.withOneStep else c₁))
    cases form.assign c "radiation" d with
    | error fault => rfl
    | ok c₁ =>
      by_cases htrue : d.isTrue = true
      · simp only [htrue, if_true]
        exact run_countSteps c₁ (.int 1)
      · simp only [htrue]
        rfl
  | radiationStepSize => exact run_exchange assign_count_zero _ _ _ d c
  | radiationSteps => exact run_countSteps c d
  | _ => exact run_assignment c _ d

theorem valid_setter (h : c.Valid) (setting : OrbitSetting) (d : Datum) : ((setter setting d).run c).2.Valid := by
  rw [run_setter]
  cases hchange : c.change setting d with
  | ok c' => exact valid_change h hchange
  | error fault => exact h

theorem setter_of_error {setting : OrbitSetting} {fault : Fault} (h : ((setter setting d).run c).1 = .error fault) :
    ((setter setting d).run c).2 = c := by
  rw [run_setter] at h ⊢
  cases hchange : c.change setting d with
  | ok c' =>
    rw [hchange] at h
    cases h
  | error fault' => rfl

/-! ### The process for a search -/

/-- The radiation process that the settings call for, made with all checks. -/
def buildRadiation (c : OrbitConfig Float) : Except Fault (Radiation Float) :=
  if Scalar.lt 0 c.radiationStepSize then Radiation.build (.int 1) c.radiationStepSize false
  else Radiation.build (.int (max 1 c.radiationSteps)) 0 false

/-- The process splits elements by the rule of the settings. -/
structure AsksFor (c : OrbitConfig Float) (r : Radiation Float) : Prop where
  count : c.CountsSteps → ∀ length, r.requestedSteps length = .ok c.radiationSteps.toNat
  limit : c.LimitsSteps → ∀ length, r.requestedSteps length =
    (Scalar.ceil (length / c.radiationStepSize)).map fun n => max 1 n.toNat

theorem buildRadiation_eq_limited (h : Scalar.lt 0 c.radiationStepSize = true) :
    c.buildRadiation = .ok ⟨0, c.radiationStepSize, false⟩ := by
  have hnumbers := Double.isNumber_of_lt h
  have hle : Scalar.le c.radiationStepSize 0 = false := by
    rw [Scalar.Ordered.lt_eq_not_le hnumbers.1 hnumbers.2] at h
    simpa using h
  rw [buildRadiation, if_pos h, Radiation.build, if_pos h]
  exact Radiation.setMaxStep_eq_ok_iff.mpr ⟨hle, rfl⟩

theorem buildRadiation_eq_fixed (h : Scalar.lt 0 c.radiationStepSize = false) :
    c.buildRadiation = .ok ⟨max 1 c.radiationSteps.toNat, 0, false⟩ := by
  have hzero : Scalar.lt (0 : Float) 0 = false := by decide +kernel
  have hcount : Radiation.countOf (.int (max 1 c.radiationSteps)) = .ok (max 1 c.radiationSteps.toNat) := by
    have hfew : Datum.Relation.less.holds (some (Ord.compare (max 1 c.radiationSteps) 1)) = false := by
      refine beq_eq_false_iff_ne.mpr fun hlt => ?_
      exact absurd (compare_lt_iff_lt.mp (Option.some.inj hlt)) (not_lt.mpr (le_max_left _ _))
    refine bind_eq_ok_iff.mpr ⟨false, mapError_eq_ok_iff.mpr (congrArg Except.ok hfew), ?_⟩
    change Except.ok (max 1 c.radiationSteps).toNat = _
    congr 1
    omega
  simp only [buildRadiation, Radiation.build, h, hzero, Bool.false_eq_true, if_false, Radiation.setSteps, hcount]
  rfl

theorem radiation_mem_transients_iff {r : Radiation Float} :
    .radiation r ∈ OrbitSearch.transients c ↔ c.radiation = true ∧ c.buildRadiation = .ok r := by
  have hscaling : .radiation r ∉ (if Scalar.beq c.bendScale 0 then [] else [BeamProcess.ringDelta c.bendScale]) := by
    split <;> simp
  have hcheck : .radiation r ∉ (if c.checkFinite then [BeamProcess.finiteness (α := Float) true] else []) := by
    split <;> simp
  simp only [OrbitSearch.transients, List.mem_append, hscaling, hcheck, or_false]
  by_cases hradiation : c.radiation = true
  · by_cases hsize : Scalar.lt 0 c.radiationStepSize = true
    · rw [if_pos hradiation, if_pos hsize, buildRadiation_eq_limited hsize]
      simp [hradiation, Radiation.limitedStep, eq_comm]
    · rw [if_pos hradiation, if_neg hsize, buildRadiation_eq_fixed (by simpa using hsize)]
      simp [hradiation, eq_comm]
  · simp [hradiation]

/-- The process can always be made, and it is the one that a search with radiation attaches. -/
theorem exists_buildRadiation (c : OrbitConfig Float) :
    ∃ r, c.buildRadiation = .ok r ∧ c.AsksFor r ∧
      ∀ r', .radiation r' ∈ OrbitSearch.transients c ↔ c.radiation = true ∧ r' = r := by
  have hmem {r : Radiation Float} (hr : c.buildRadiation = .ok r) (r' : Radiation Float) :
      .radiation r' ∈ OrbitSearch.transients c ↔ c.radiation = true ∧ r' = r := by
    rw [radiation_mem_transients_iff, hr, Except.ok.injEq, eq_comm (a := r)]
  cases hsize : Scalar.lt 0 c.radiationStepSize with
  | true =>
    have hbuild := buildRadiation_eq_limited hsize
    refine ⟨_, hbuild, ⟨fun hcounts => ?_, fun _ length => ?_⟩, hmem hbuild⟩
    · rw [hcounts.2] at hsize
      exact absurd hsize (by decide +kernel)
    · rw [Radiation.requestedSteps, if_pos hsize]
      cases Scalar.ceil (length / c.radiationStepSize) <;> rfl
  | false =>
    have hbuild := buildRadiation_eq_fixed hsize
    refine ⟨_, hbuild, ⟨fun hcounts length => ?_, fun hlimits => ?_⟩, hmem hbuild⟩
    · have hone : max 1 c.radiationSteps.toNat = c.radiationSteps.toNat := by
        have hcount := hcounts.1
        omega
      have hcounted : Radiation.IsCounted ⟨max 1 c.radiationSteps.toNat, 0, false⟩ := ⟨le_max_left _ _, rfl⟩
      rw [hcounted.requestedSteps_eq, hone]
    · rw [hlimits.1] at hsize
      cases hsize

end OrbitConfig

end BeamOptics
