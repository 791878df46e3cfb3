import BeamOptics.Proofs.Tracking.Transport

/-!
# Properties of bunches that tracking maintains

A property that the maps of an element and every process leave in place is in place behind the element, in whatever
count of slices it is passed, and so behind a line of such elements.
-/

namespace BeamOptics

/-- Whatever way of a bunch succeeds, it leaves a property of the bunch in place. -/
def Maintains {α ε : Type} (P : Bunch α → Prop) (way : Bunch α → Except ε (Bunch α)) : Prop :=
  ∀ b b', way b = .ok b' → P b → P b'

namespace Maintains

variable {α ε ε' : Type} {P : Bunch α → Prop}

theorem refl : Maintains P (.ok : Bunch α → Except ε (Bunch α)) := by
  intro b b' h hb
  obtain rfl := Except.ok.inj h
  exact hb

theorem bind {way way' : Bunch α → Except ε (Bunch α)} (h : Maintains P way) (h' : Maintains P way') :
    Maintains P fun b => way b >>= way' := by
  intro b b' hboth hb
  obtain ⟨b₁, hfirst, hsecond⟩ := bind_eq_ok_iff.mp hboth
  exact h' b₁ b' hsecond (h b b₁ hfirst hb)

theorem mapError {way : Bunch α → Except ε (Bunch α)} (h : Maintains P way) (f : ε → ε') :
    Maintains P fun b => (way b).mapError f := fun b b' hway => h b b' (mapError_eq_ok_iff.mp hway)

variable [Scalar α] {processes : List (BeamProcess α)}

theorem applyAll {e : Element α} {ds : α} (h : ∀ p ∈ processes, Maintains P (p.act e ds)) :
    Maintains P (Pass.applyAll e ds processes).reach := by
  induction processes with
  | nil => exact refl
  | cons p rest ih =>
    have hboth := (h p List.mem_cons_self).bind (ih fun q hq => h q (List.mem_cons_of_mem p hq))
    intro b b' hreach
    rw [Pass.reach_applyAll_cons] at hreach
    exact hboth b b' hreach

theorem slices {e : Element α} {m : TransferMap α} {kick : PhaseVector α} {ds : α}
    (hmap : ∀ b, P b → P (b.mapParticles fun v => m.act v + kick))
    (h : ∀ p ∈ processes, Maintains P (p.act e ds)) (n : Nat) :
    Maintains P (Pass.slices processes e m kick ds n).reach := by
  have hslice : Maintains P (Pass.slice processes e m kick ds).reach := fun b b' hreach hb =>
    applyAll h (b.mapParticles fun v => m.act v + kick) b' hreach (hmap b hb)
  induction n with
  | zero => exact refl
  | succ n ih =>
    intro b b' hreach
    rw [Pass.slices, Action.reach_bind] at hreach
    exact hslice.bind ih b b' hreach

/-- An element maintains what its slices do, in whatever count the processes ask for. -/
theorem through {signals : Signals α} {e : Element α}
    (h : ∀ n ds m, Pass.stepCount processes e = .ok n → Scalar.overCount e.length n = .ok ds →
      e.transferMap ds = .ok m →
      (∀ b, P b → P (b.mapParticles fun v => m.act v + e.kick (signals.strength e) ds)) ∧
        ∀ p ∈ processes, Maintains P (p.act e ds)) : Maintains P (Pass.through processes signals e) := by
  intro b b' hthrough
  obtain ⟨cut, hcut, hpass⟩ := Pass.exists_of_through hthrough
  obtain ⟨hcount, hds, hm⟩ := Pass.of_slicing hcut
  obtain ⟨hmap, hact⟩ := h cut.count cut.ds cut.map hcount hds hm
  exact slices hmap (fun p hp => hact p (BeamProcess.mem_of_mem_inOrder hp)) cut.count b b' hpass

theorem along {signals : Signals α} {elements : List (Element α)}
    (h : ∀ e ∈ elements, Maintains P (Pass.through processes signals e)) (index : Nat) :
    Maintains P (Pass.along processes signals index elements) := by
  induction elements generalizing index with
  | nil => exact refl
  | cons e rest ih =>
    have hfirst := (h e List.mem_cons_self).mapError fun fault => (index, fault)
    exact hfirst.bind (ih (fun f hf => h f (List.mem_cons_of_mem e hf)) (index + 1))

theorem transport {signals : Signals α} {r : Range α}
    (h : ∀ e ∈ r.elements, Maintains P (Pass.through processes signals e)) :
    Maintains P (r.transport processes signals) := (along h r.first).mapError Range.surface

end Maintains

end BeamOptics
