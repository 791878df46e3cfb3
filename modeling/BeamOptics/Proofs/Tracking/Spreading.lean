import BeamOptics.Proofs.Scalar.Finiteness
import BeamOptics.Proofs.Tracking.FiniteGuard
import BeamOptics.Proofs.Tracking.Maintains

/-!
# Coordinates that are not finite spread

A map multiplies every coordinate into each row, with zeros too, and so one coordinate that is not finite leaves none
that is. Processes make no coordinate finite. Behind the first slice, then, a single finite coordinate of a particle
vouches for all coordinates that the particle started with.
-/

namespace BeamOptics

variable {α : Type} [Scalar α]

/-- A map of particles that makes no coordinate finite. -/
def PhaseVector.Honest (f : PhaseVector α → PhaseVector α) : Prop :=
  ∀ v c, Scalar.isFinite ((f v).get c) = true → Scalar.isFinite (v.get c) = true

theorem PhaseVector.Honest.comp {f g : PhaseVector α → PhaseVector α} (hg : Honest g) (hf : Honest f) :
    Honest (g ∘ f) := fun v c h => hf v c (hg (f v) c h)

/-- Any finite coordinate of a particle vouches for the particle of a list that it came from. -/
def Bunch.VouchesFor (b : Bunch α) (start : List (PhaseVector α)) : Prop :=
  List.Forall₂ (fun v w => ∀ c, Scalar.isFinite (w.get c) = true → v.isFinite = true) start b.particles

theorem Bunch.VouchesFor.of_map {start : List (PhaseVector α)} {b b' : Bunch α} (h : b.VouchesFor start)
    {f : PhaseVector α → PhaseVector α} (hf : PhaseVector.Honest f) (hparticles : b'.particles = b.particles.map f) :
    b'.VouchesFor start := by
  rw [VouchesFor, hparticles, List.forall₂_map_right_iff]
  exact h.imp fun v w hw c hc => hw c (hf w c hc)

variable [Scalar.Absorbing α]

open Scalar Absorbing

namespace PhaseVector

theorem isFinite_of_dot {row v : PhaseVector α} (h : Scalar.isFinite (row.dot v) = true) : v.isFinite = true := by
  obtain ⟨h, hdp⟩ := isFinite_of_add h
  obtain ⟨h, hct⟩ := isFinite_of_add h
  obtain ⟨h, hyp⟩ := isFinite_of_add h
  obtain ⟨h, hy⟩ := isFinite_of_add h
  obtain ⟨hx, hxp⟩ := isFinite_of_add h
  rw [isFinite_iff]
  intro c
  cases c with
  | x => exact (isFinite_of_mul hx).2
  | xp => exact (isFinite_of_mul hxp).2
  | y => exact (isFinite_of_mul hy).2
  | yp => exact (isFinite_of_mul hyp).2
  | ct => exact (isFinite_of_mul hct).2
  | dp => exact (isFinite_of_mul hdp).2

theorem isFinite_of_act_add {m : TransferMap α} {kick v : PhaseVector α} {c : Coordinate}
    (h : Scalar.isFinite ((m.act v + kick).get c) = true) : v.isFinite = true := by
  rw [get_add, TransferMap.get_act] at h
  exact isFinite_of_dot (isFinite_of_add h).1

theorem honest_loss (loss : α → α) : Honest fun v : PhaseVector α => { v with dp := v.dp - loss v.dp } := by
  intro v c h
  cases c with
  | dp => exact (isFinite_of_sub h).1
  | _ => exact h

theorem honest_delay (delay : α) : Honest fun v : PhaseVector α => { v with ct := v.ct - delay } := by
  intro v c h
  cases c with
  | ct => exact (isFinite_of_sub h).1
  | _ => exact h

theorem honest_rescale (scale : α) : Honest (Radiation.rescale scale) := by
  intro v c h
  cases c with
  | xp => exact isFinite_of_div h
  | yp => exact isFinite_of_div h
  | dp => exact (isFinite_of_add (isFinite_of_div (isFinite_of_sub h).1)).2
  | _ => exact h

end PhaseVector

namespace BeamProcess

theorem Motion.honest {f : PhaseVector α → PhaseVector α} (h : Motion f) : PhaseVector.Honest f := by
  cases h with
  | rest => exact fun v c hc => hc
  | loss loss => exact PhaseVector.honest_loss loss
  | rereference loss scale => exact (PhaseVector.honest_rescale scale).comp (PhaseVector.honest_loss loss)
  | delay delay => exact PhaseVector.honest_delay delay

theorem maintains_vouchesFor (p : BeamProcess α) (e : Element α) (ds : α) (start : List (PhaseVector α)) :
    Maintains (fun b => b.VouchesFor start) (p.act e ds) := by
  intro b b' hact h
  obtain ⟨f, momentum, hf, rfl⟩ := exists_motion_of_act hact
  exact h.of_map hf.honest rfl

end BeamProcess

namespace Bunch

/-- Behind a map every coordinate vouches for all those before it. -/
theorem vouchesFor_mapParticles (b : Bunch α) (m : TransferMap α) (kick : PhaseVector α) :
    (b.mapParticles fun v => m.act v + kick).VouchesFor b.particles := by
  rw [VouchesFor, mapParticles, List.forall₂_map_right_iff, List.forall₂_same]
  exact fun v hv c hc => PhaseVector.isFinite_of_act_add hc

theorem VouchesFor.mapParticles {start : List (PhaseVector α)} {b : Bunch α} (h : b.VouchesFor start)
    (m : TransferMap α) (kick : PhaseVector α) : (b.mapParticles fun v => m.act v + kick).VouchesFor start := by
  refine h.of_map (fun v c hc => ?_) rfl
  exact PhaseVector.isFinite_iff.mp (PhaseVector.isFinite_of_act_add hc) c

end Bunch

namespace Pass

variable {processes : List (BeamProcess α)} {signals : Signals α} {e : Element α} {b b' : Bunch α}

theorem maintains_vouchesFor (processes : List (BeamProcess α)) (signals : Signals α) (e : Element α)
    (start : List (PhaseVector α)) : Maintains (fun b => b.VouchesFor start) (through processes signals e) := by
  refine Maintains.through fun n ds m _ _ _ => ⟨fun b h => h.mapParticles m _, fun p _ => ?_⟩
  exact p.maintains_vouchesFor e ds start

theorem vouchesFor_of_slices {m : TransferMap α} {kick : PhaseVector α} {ds : α} {n : Nat} (hn : n ≠ 0)
    (h : (slices processes e m kick ds n).reach b = .ok b') : b'.VouchesFor b.particles := by
  have hact (p : BeamProcess α) (_ : p ∈ processes) := p.maintains_vouchesFor e ds b.particles
  cases n with
  | zero => exact absurd rfl hn
  | succ n =>
    rw [slices, Action.reach_bind] at h
    obtain ⟨b₁, hslice, hrest⟩ := bind_eq_ok_iff.mp h
    -- The map of the first slice does the spreading, all that follows only keeps it.
    have hfirst := Maintains.applyAll hact _ b₁ hslice (b.vouchesFor_mapParticles m kick)
    exact Maintains.slices (fun b h => h.mapParticles m kick) hact n b₁ b' hrest hfirst

theorem vouchesFor_of_through (h : through processes signals e b = .ok b') : b'.VouchesFor b.particles := by
  obtain ⟨cut, hcut, hpass⟩ := exists_of_through h
  -- An element is passed in one slice at least.
  exact vouchesFor_of_slices (Scalar.ne_zero_of_overCount (of_slicing hcut).2.1) hpass

end Pass

/-- Behind a range that has elements, one finite coordinate of a particle vouches for its start. -/
theorem Range.vouchesFor_of_transport {processes : List (BeamProcess α)} {signals : Signals α} {r : Range α}
    (hr : r.elements ≠ []) {b b' : Bunch α} (h : r.transport processes signals b = .ok b') :
    b'.VouchesFor b.particles := by
  obtain ⟨first, elements⟩ := r
  have halong := mapError_eq_ok_iff.mp h
  cases elements with
  | nil => exact absurd rfl hr
  | cons e rest =>
    rw [Pass.along] at halong
    obtain ⟨b₁, hthrough, hrest⟩ := bind_eq_ok_iff.mp halong
    have hfirst := Pass.vouchesFor_of_through (mapError_eq_ok_iff.mp hthrough)
    have hlater (f : Element α) (_ : f ∈ rest) := Pass.maintains_vouchesFor processes signals f b.particles
    exact Maintains.along hlater (first + 1) b₁ b' hrest hfirst

end BeamOptics
