import BeamOptics.Proofs.Lattice.Bounds
import BeamOptics.Proofs.Tracking.Transport

/-!
# Faults on the way

What stops a bunch on its way through a range is a fault of arithmetic or of a check. It comes out of tracking as a
fault of tracking, with the place where it happened unless a check has named it: never as one that refuses a segment.
-/

namespace BeamOptics

/-- The faults that stop a bunch inside an element: of arithmetic, or of a check. -/
def Fault.isStop : Fault → Bool
  | math _ | nonFinite .. => true
  | _ => false

/-- The faults of tracking: a bunch that was stopped, that is missing, or that has nowhere to go. -/
def Fault.isTracking : Fault → Bool
  | nonFinite .. | failedAt .. | noInitialBunch _ | stepperIdle | stepperPastEnd => true
  | _ => false

theorem Fault.isSegment_of_isStop {fault : Fault} (h : fault.isStop = true) : fault.isSegment = false := by
  cases fault with
  | math fault => rfl
  | nonFinite element particles detailed => rfl
  | _ => cases h

/-- The outcome fails only with faults of a sort. -/
def FailsOnly {β : Type} (P : Fault → Prop) (r : Except Fault β) : Prop := ∀ fault, r = .error fault → P fault

namespace FailsOnly

variable {P : Fault → Prop} {β γ : Type}

theorem ok (b : β) : FailsOnly P (.ok b) := nofun

theorem error {fault : Fault} (h : P fault) : FailsOnly P (.error fault : Except Fault β) := by
  intro fault' hfault
  obtain rfl := Except.error.inj hfault
  exact h

theorem bind {r : Except Fault β} {f : β → Except Fault γ} (hr : FailsOnly P r)
    (hf : ∀ b, r = .ok b → FailsOnly P (f b)) : FailsOnly P (r >>= f) := by
  cases r with
  | error fault => exact error (hr fault rfl)
  | ok b => exact hf b rfl

theorem ofMath (hP : ∀ fault, P (.math fault)) (r : Except MathFault β) : FailsOnly P (ofMath r) := by
  cases r with
  | error fault => exact error (hP fault)
  | ok b => exact ok b

theorem mapM {ι : Type} {f : ι → Except Fault β} (hf : ∀ i, FailsOnly P (f i)) (items : List ι) :
    FailsOnly P (items.mapM f) := by
  induction items with
  | nil => exact ok []
  | cons i rest ih =>
    rw [List.mapM_cons]
    exact (hf i).bind fun _ _ => ih.bind fun _ _ => ok _

end FailsOnly

/-- The outcome does not refuse a segment. -/
def SegmentFree {β : Type} (r : Except Fault β) : Prop := ∀ fault, r = .error fault → fault.isSegment = false

namespace SegmentFree

variable {β γ : Type}

theorem ok (b : β) : SegmentFree (.ok b) := FailsOnly.ok b

theorem error {fault : Fault} (h : fault.isSegment = false) : SegmentFree (.error fault : Except Fault β) :=
  FailsOnly.error h

theorem bind {r : Except Fault β} {f : β → Except Fault γ} (hr : SegmentFree r)
    (hf : ∀ b, r = .ok b → SegmentFree (f b)) : SegmentFree (r >>= f) := FailsOnly.bind hr hf

theorem ofMath (r : Except MathFault β) : SegmentFree (ofMath r) := FailsOnly.ofMath (fun _ => rfl) r

end SegmentFree

variable {α : Type} [Scalar α]

namespace Bunch

theorem segmentFree_copy (b : Bunch α) : SegmentFree b.copy := by
  unfold copy make
  split
  · exact .error rfl
  · exact .ok _

end Bunch

/-! ### Stops -/

/-- The outcome fails only with faults that stop a bunch. -/
abbrev Stops {β : Type} (r : Except Fault β) : Prop := FailsOnly (fun fault => fault.isStop = true) r

theorem Stops.ofMath {β : Type} (r : Except MathFault β) : Stops (BeamOptics.ofMath r) :=
  FailsOnly.ofMath (fun _ => rfl) r

namespace BeamProcess

theorem stops_requestedSteps (p : BeamProcess α) (e : Element α) : Stops (p.requestedSteps e) := by
  cases p with
  | radiation r => exact .ofMath _
  | ringDelta scale => exact .ok 1
  | finiteness detailed => exact .ok 1

theorem stops_act (p : BeamProcess α) (e : Element α) (ds : α) (b : Bunch α) : Stops (p.act e ds b) := by
  cases p with
  | radiation r => exact .ofMath _
  | ringDelta scale =>
    rw [act]
    split <;> exact .ok _
  | finiteness detailed =>
    rw [act]
    split
    · exact .ok _
    · exact .error rfl

end BeamProcess

namespace Pass

theorem stops_stepCount (processes : List (BeamProcess α)) (e : Element α) : Stops (stepCount processes e) := by
  unfold stepCount
  split
  · refine (FailsOnly.mapM (fun p => p.stops_requestedSteps e) processes).bind fun counts _ => ?_
    split <;> exact .ok _
  · exact .ok 1

theorem stops_applyAll (e : Element α) (ds : α) (processes : List (BeamProcess α)) (b : Bunch α) :
    Stops ((applyAll e ds processes).reach b) := by
  induction processes generalizing b with
  | nil => exact .ok b
  | cons p rest ih =>
    rw [reach_applyAll_cons]
    exact (p.stops_act e ds b).bind fun b' _ => ih b'

theorem stops_slices (processes : List (BeamProcess α)) (e : Element α) (m : TransferMap α) (kick : PhaseVector α)
    (ds : α) (n : Nat) (b : Bunch α) : Stops ((slices processes e m kick ds n).reach b) := by
  induction n generalizing b with
  | zero => exact .ok b
  | succ n ih =>
    rw [slices, Action.reach_bind]
    exact (stops_applyAll e ds processes _).bind fun b' _ => ih b'

theorem stops_through (processes : List (BeamProcess α)) (signals : Signals α) (e : Element α) (b : Bunch α) :
    Stops (through processes signals e b) := by
  rw [through_eq]
  refine (stops_stepCount processes e).bind fun n _ => ?_
  refine (Stops.ofMath _).bind fun ds _ => ?_
  refine (Stops.ofMath _).bind fun m _ => ?_
  exact stops_slices _ e m _ ds n b

/-- A fault along a line comes from one of its elements. -/
theorem isStop_of_along {processes : List (BeamProcess α)} {signals : Signals α} {index : Nat}
    {elements : List (Element α)} {b : Bunch α} {failure : Nat × Fault}
    (h : along processes signals index elements b = .error failure) : failure.2.isStop = true := by
  induction elements generalizing index b with
  | nil => cases h
  | cons e rest ih =>
    rw [along] at h
    cases hthrough : through processes signals e b with
    | error fault =>
      rw [hthrough] at h
      obtain rfl := Except.error.inj h
      exact stops_through processes signals e b fault hthrough
    | ok b' =>
      rw [hthrough] at h
      exact ih h

end Pass

namespace Range

/-- A range is left with what stopped the bunch in it, the way such a fault comes out. -/
theorem failsOnly_transport {P : Fault → Prop}
    (hP : ∀ failure : Nat × Fault, failure.2.isStop = true → P (surface failure))
    (processes : List (BeamProcess α)) (signals : Signals α) (r : Range α) (b : Bunch α) :
    FailsOnly P (r.transport processes signals b) := by
  unfold transport
  cases halong : Pass.along processes signals r.first r.elements b with
  | ok b' => exact .ok b'
  | error failure => exact .error (hP failure (Pass.isStop_of_along halong))

theorem segmentFree_transport (processes : List (BeamProcess α)) (signals : Signals α) (r : Range α) (b : Bunch α) :
    SegmentFree (r.transport processes signals b) := by
  refine failsOnly_transport (fun failure hstop => ?_) processes signals r b
  rw [surface]
  split
  · exact Fault.isSegment_of_isStop hstop
  · rfl

/-- A fault of arithmetic gets the place where it happened, a fault of a check has named it already. -/
theorem isTracking_transport (processes : List (BeamProcess α)) (signals : Signals α) (r : Range α) (b : Bunch α) :
    FailsOnly (fun fault => fault.isTracking = true) (r.transport processes signals b) := by
  refine failsOnly_transport (fun failure hstop => ?_) processes signals r b
  obtain ⟨index, cause⟩ := failure
  cases cause with
  | math fault => rfl
  | nonFinite element particles detailed => rfl
  | _ => cases hstop

end Range

end BeamOptics
