import BeamOptics.ClosedOrbit.Search
import BeamOptics.Proofs.Exact.Settings
import BeamOptics.Proofs.Scalar.Quotients

/-!
# Counts of steps in doubles

A radiation process goes by a count of steps or by the length of a step, and what sets one of them resets the other.
Both are checked, but the check of a length lets through what is no number, and then the process asks for no step at
all. As long as every length that was set is a number, an element is split into at least one step, and its length can be
divided by their count.
-/

namespace BeamOptics

namespace Radiation

/-- A fixed count of steps for every element. -/
structure IsCounted (r : Radiation Float) : Prop where
  steps : 1 ≤ r.steps
  maxStep : r.maxStep = 0

/-- Steps no longer than a length above zero. -/
structure IsLimited (r : Radiation Float) : Prop where
  steps : r.steps = 0
  maxStep : Scalar.lt 0 r.maxStep = true

/-- Neither a count nor a length. -/
structure IsIdle (r : Radiation Float) : Prop where
  steps : r.steps = 0
  maxStep : Scalar.isNumber r.maxStep = false

/-- The process goes by a count or by a length, and not by both. -/
def HasRule (r : Radiation Float) : Prop := Xor r.IsCounted r.IsLimited

variable {r r' : Radiation Float}

theorem IsCounted.hasRule (h : r.IsCounted) : r.HasRule := by
  refine .inl ⟨h, fun hlimited => ?_⟩
  have hsteps := h.steps
  have hnone := hlimited.steps
  omega

theorem IsLimited.hasRule (h : r.IsLimited) : r.HasRule := by
  refine .inr ⟨h, fun hcounted => ?_⟩
  have hsteps := hcounted.steps
  have hnone := h.steps
  omega

theorem IsIdle.not_hasRule (h : r.IsIdle) : ¬r.HasRule := by
  rintro (⟨hcounted, -⟩ | ⟨hlimited, -⟩)
  · have hsteps := hcounted.steps
    have hnone := h.steps
    omega
  · have hnumber := (Double.isNumber_of_lt hlimited.maxStep).2
    simp [h.maxStep] at hnumber

/-! ### Setting a rule -/

theorem isCounted_of_setSteps {count : Datum} (h : r.setSteps count = .ok r') : r'.IsCounted := by
  obtain ⟨steps, hsteps, h⟩ := bind_eq_ok_iff.mp h
  obtain rfl := Except.ok.inj h
  exact ⟨one_le_countOf hsteps, rfl⟩

theorem setMaxStep_eq_ok_iff {size : Float} :
    r.setMaxStep size = .ok r' ↔ Scalar.le size 0 = false ∧ r.limitedStep size = r' := by
  rw [setMaxStep]
  cases hsize : Scalar.le size 0 <;> simp

theorem isLimited_of_setMaxStep {size : Float} (hnumber : Scalar.isNumber size = true)
    (h : r.setMaxStep size = .ok r') : r'.IsLimited := by
  obtain ⟨hsize, rfl⟩ := setMaxStep_eq_ok_iff.mp h
  refine ⟨rfl, ?_⟩
  have hzero : Scalar.isNumber (0 : Float) = true := by decide +kernel
  change Scalar.lt 0 size = true
  rw [Scalar.Ordered.lt_eq_not_le hzero hnumber, hsize]
  rfl

/-- A step length that is no number is let through, as it is not below any bound. -/
theorem setMaxStep_of_not_isNumber {size : Float} (h : Scalar.isNumber size = false) (r : Radiation Float) :
    r.setMaxStep size = .ok (r.limitedStep size) ∧ (r.limitedStep size).IsIdle := by
  refine ⟨setMaxStep_eq_ok_iff.mpr ⟨?_, rfl⟩, rfl, h⟩
  by_contra hle
  have hnumber := (Scalar.Ordered.isNumber_of_le (Bool.eq_true_of_not_eq_false hle)).1
  simp [h] at hnumber

theorem hasRule_of_build {count : Datum} {size : Float} {rereference : Bool}
    (h : build count size rereference = .ok r) : r.HasRule := by
  unfold build at h
  by_cases hsize : Scalar.lt 0 size = true
  · rw [if_pos hsize] at h
    exact (isLimited_of_setMaxStep (Double.isNumber_of_lt hsize).2 h).hasRule
  · rw [if_neg hsize] at h
    exact (isCounted_of_setSteps h).hasRule

/-! ### Steps for an element -/

theorem requestedSteps_of_lt_eq_false (h : Scalar.lt 0 r.maxStep = false) (length : Float) :
    r.requestedSteps length = .ok r.steps := by
  rw [requestedSteps, h]
  rfl

theorem IsCounted.requestedSteps_eq (h : r.IsCounted) (length : Float) : r.requestedSteps length = .ok r.steps := by
  apply requestedSteps_of_lt_eq_false
  rw [h.maxStep]
  decide +kernel

theorem IsIdle.requestedSteps_eq (h : r.IsIdle) (length : Float) : r.requestedSteps length = .ok 0 := by
  rw [requestedSteps_of_lt_eq_false _ length, h.steps]
  by_contra hlt
  have hnumber := (Double.isNumber_of_lt (Bool.eq_true_of_not_eq_false hlt)).2
  simp [h.maxStep] at hnumber

/-- Steps are limited to a length, and the quotient that tells their count is too large for a double. -/
def Overflows (r : Radiation Float) (length : Float) : Prop :=
  Scalar.lt 0 r.maxStep = true ∧ (length / r.maxStep).isInf = true

theorem HasRule.exists_requestedSteps (h : r.HasRule) {length : Float} (hlength : length.isFinite = true)
    (hquotient : ¬r.Overflows length) : ∃ n, 1 ≤ n ∧ r.requestedSteps length = .ok n := by
  rcases h with ⟨hcounted, -⟩ | ⟨hlimited, -⟩
  · exact ⟨r.steps, hcounted.steps, hcounted.requestedSteps_eq length⟩
  · have hfits : (length / r.maxStep).isInf = false :=
      Bool.eq_false_iff.mpr fun hinf => hquotient ⟨hlimited.maxStep, hinf⟩
    obtain ⟨i, hi⟩ := Double.exists_ceil (Double.isNumber_div hlength hlimited.maxStep) hfits
    refine ⟨max 1 i.toNat, le_max_left _ _, ?_⟩
    rw [requestedSteps, hlimited.maxStep, if_pos rfl, hi]
    rfl

theorem HasRule.one_le_requestedSteps (h : r.HasRule) {length : Float} {n : Nat}
    (hn : r.requestedSteps length = .ok n) : 1 ≤ n := by
  rcases h with ⟨hcounted, -⟩ | ⟨hlimited, -⟩
  · rw [hcounted.requestedSteps_eq] at hn
    obtain rfl := Except.ok.inj hn
    exact hcounted.steps
  · rw [requestedSteps, hlimited.maxStep, if_pos rfl] at hn
    obtain ⟨i, -, hi⟩ := bind_eq_ok_iff.mp hn
    obtain rfl := Except.ok.inj hi
    exact le_max_left _ _

end Radiation

namespace BeamProcess

/-- Processes other than radiation ask for one step. -/
def HasRule : BeamProcess Float → Prop
  | radiation r => r.HasRule
  | _ => True

def Overflows (e : Element Float) : BeamProcess Float → Prop
  | radiation r => r.Overflows e.length
  | _ => False

variable {p : BeamProcess Float} {e : Element Float}

theorem HasRule.exists_requestedSteps (h : p.HasRule) (hlength : e.length.isFinite = true)
    (hquotient : ¬p.Overflows e) : ∃ n, 1 ≤ n ∧ p.requestedSteps e = .ok n := by
  cases p with
  | radiation r =>
    obtain ⟨n, hn, hsteps⟩ := Radiation.HasRule.exists_requestedSteps h hlength hquotient
    refine ⟨n, hn, ?_⟩
    rw [requestedSteps, hsteps]
    rfl
  | ringDelta scale => exact ⟨1, le_rfl, rfl⟩
  | finiteness detailed => exact ⟨1, le_rfl, rfl⟩

theorem HasRule.one_le_requestedSteps (h : p.HasRule) {n : Nat} (hn : p.requestedSteps e = .ok n) : 1 ≤ n := by
  cases p with
  | radiation r =>
    rw [requestedSteps, ofMath, mapError_eq_ok_iff] at hn
    exact Radiation.HasRule.one_le_requestedSteps h hn
  | ringDelta scale =>
    obtain rfl := Except.ok.inj hn
    exact le_rfl
  | finiteness detailed =>
    obtain rfl := Except.ok.inj hn
    exact le_rfl

theorem hasRule_of_mem_transients {c : OrbitConfig Float} (h : p ∈ OrbitSearch.transients c) : p.HasRule := by
  unfold OrbitSearch.transients at h
  simp only [List.mem_append] at h
  rcases h with (h | h) | h
  · split at h
    · obtain rfl := List.mem_singleton.mp h
      by_cases hsize : Scalar.lt 0 c.radiationStepSize = true
      · rw [if_pos hsize]
        exact Radiation.IsLimited.hasRule ⟨rfl, hsize⟩
      · rw [if_neg hsize]
        exact Radiation.IsCounted.hasRule ⟨le_max_left _ _, rfl⟩
    · simp at h
  · split at h
    · simp at h
    · obtain rfl := List.mem_singleton.mp h
      trivial
  · split at h
    · obtain rfl := List.mem_singleton.mp h
      trivial
    · simp at h

end BeamProcess

namespace Pass

variable {processes : List (BeamProcess Float)} {e : Element Float}

theorem one_le_stepCount (h : ∀ p ∈ processes, p.HasRule) {n : Nat} (hn : stepCount processes e = .ok n) : 1 ≤ n := by
  unfold stepCount at hn
  split at hn
  · obtain ⟨counts, hcounts, hn⟩ := bind_eq_ok_iff.mp hn
    have hall (m : Nat) (hm : m ∈ counts) : 1 ≤ m := by
      obtain ⟨p, hp, hsteps⟩ := exists_of_mapM_eq_ok hcounts m hm
      exact (h p hp).one_le_requestedSteps hsteps
    cases counts with
    | nil =>
      obtain rfl := Except.ok.inj hn
      exact le_rfl
    | cons m rest =>
      obtain rfl := Except.ok.inj hn
      have hm : 1 ≤ max 0 m := (hall m List.mem_cons_self).trans (le_max_right 0 m)
      exact hm.trans (le_foldl_max _ rest)
  · obtain rfl := Except.ok.inj hn
    exact le_rfl

end Pass

end BeamOptics
