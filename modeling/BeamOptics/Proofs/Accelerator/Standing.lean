import BeamOptics.Proofs.Accelerator.TrackState

/-!
# Entries that stand

An entry of the cache stands when its bunch is its initial bunch behind the elements that it has passed. Tracking a
state keeps its entry standing, and what it ends in is then the transport from the start of the line.
-/

namespace BeamOptics

namespace Rig

variable {α : Type} [Scalar α]

def through (rig : Rig α) (e : Element α) : Bunch α → Except Fault (Bunch α) :=
  Pass.through (rig.plant.processesOf rig.tracker.processes) rig.plant.signals e

theorem through_of_regime {rig rig' : Rig α} (h : rig'.regime = rig.regime) : rig'.through = rig.through := by
  obtain ⟨hstrengths, hprocesses⟩ := Prod.ext_iff.mp h
  simp only [regime, Station.regime] at hstrengths hprocesses
  funext e
  rw [through, through, hprocesses]
  exact Pass.through_congr _ (by rw [Signals.strength, hstrengths, Signals.strength])

theorem transport_of_through {rig rig' : Rig α} {r : Range α} (h : ∀ e ∈ r.elements, rig'.through e = rig.through e) :
    rig'.transport r = rig.transport r :=
  Range.transport_congr h

theorem transport_append (rig : Rig α) (m : Model α) {middle stop : Nat} (hmiddle : middle ≤ stop)
    (hlength : middle ≤ m.length) (b : Bunch α) :
    rig.transport (m.part 0 stop) b = rig.transport (m.part 0 middle) b >>= rig.transport (m.part middle stop) :=
  m.transport_part_append _ _ (Nat.zero_le middle) hmiddle hlength b

end Rig

variable {α : Type} [Scalar α]

theorem copy_of_createBunch {beam : ReferenceBeam α} {b : Bunch α} (h : Rig.createBunch beam = .ok b) :
    b.copy = .ok b := by
  obtain ⟨hpositive, rfl⟩ := Bunch.make_eq_ok_iff.mp h
  exact Bunch.copy_eq_ok_iff.mpr ⟨hpositive, rfl⟩

/-- The bunch of an entry is the bunch that was created for it, behind the elements before `next`. -/
structure CachedBunch.Stands (beam : ReferenceBeam α) (rig : Rig α) (m : Model α) (entry : CachedBunch α) : Prop where
  created : Rig.createBunch beam = .ok entry.initial
  within : entry.next ≤ m.length
  reached : rig.transport (m.part 0 entry.next) entry.initial = .ok entry.bunch

namespace CachedBunch.Stands

variable {beam : ReferenceBeam α} {rig : Rig α} {m : Model α} {entry : CachedBunch α}

theorem copy_initial (h : entry.Stands beam rig m) : entry.initial.copy = .ok entry.initial :=
  copy_of_createBunch h.created

theorem fresh {b : Bunch α} (h : Rig.createBunch beam = .ok b) : (fresh b).Stands beam rig m where
  created := h
  within := Nat.zero_le _
  reached := by
    change rig.transport (m.part 0 0) b = .ok b
    rw [Model.part_self]
    rfl

theorem base (h : entry.Stands beam rig m) (first : Nat) : (entry.base first).Stands beam rig m := by
  unfold CachedBunch.base
  split
  · exact fresh h.created
  · exact h

/-- An entry still stands when the line has grown and the elements it has passed act as before. -/
theorem transfer (h : entry.Stands beam rig m) {rig' : Rig α} {m' : Model α} (hgrown : m.elements <+: m'.elements)
    (hthrough : ∀ e ∈ m.elements.take entry.next, rig'.through e = rig.through e) :
    entry.Stands beam rig' m' where
  created := h.created
  within := Nat.le_trans h.within hgrown.length_le
  reached := by
    rw [Model.part_of_isPrefix hgrown h.within, Rig.transport_of_through hthrough]
    exact h.reached

theorem transport_base (h : entry.Stands beam rig m) (first : Nat) :
    rig.transport (m.part 0 first) entry.initial =
      rig.transport (m.part (entry.base first).next first) (entry.base first).bunch := by
  have hbase := h.base first
  rw [rig.transport_append m (entry.next_base_le first) hbase.within, ← entry.initial_base first, hbase.reached]
  rfl

theorem brought (h : entry.Stands beam rig m) {first : Nat} (hfirst : first ≤ m.length) {entry' : CachedBunch α}
    (hbrought : rig.brought m entry first = .ok entry') :
    entry'.Stands beam rig m ∧ entry'.next = first ∧ entry'.initial = entry.initial := by
  have hbase := h.base first
  have hinitial := Rig.initial_brought hbrought
  unfold Rig.brought at hbrought
  split at hbrought
  · rename_i hat
    obtain rfl := Except.ok.inj hbrought
    exact ⟨hbase, by simpa [CachedBunch.isAt] using hat, hinitial⟩
  · rename_i hat
    obtain ⟨b, hcopy, hbrought⟩ := bind_eq_ok_iff.mp hbrought
    obtain ⟨b', hgap, hbrought⟩ := bind_eq_ok_iff.mp hbrought
    obtain rfl := Except.ok.inj hbrought
    obtain ⟨-, rfl⟩ := Bunch.copy_eq_ok_iff.mp hcopy
    have hle := entry.next_base_le first
    have hne : (entry.base first).next ≠ first := by simpa [CachedBunch.isAt] using hat
    have hnext : ((entry.base first).advanced (first - 1) b').next = first := by
      rw [next_advanced]
      omega
    refine ⟨⟨hbase.created, hnext ▸ hfirst, ?_⟩, hnext, hinitial⟩
    rw [hnext]
    exact (congrArg _ (entry.initial_base first)).trans ((h.transport_base first).trans hgap)

theorem settled (h : entry.Stands beam rig m) {first : Nat} (hfirst : first ≤ m.length) :
    (rig.settled m entry first).Stands beam rig m := by
  unfold Rig.settled
  cases hbrought : rig.brought m entry first with
  | error fault => exact h.base first
  | ok entry' => exact (h.brought hfirst hbrought).1

theorem left (h : entry.Stands beam rig m) {s : Segment} (hlast : s.last < m.length) :
    (rig.left m entry s).Stands beam rig m := by
  have hordered := s.ordered
  unfold Rig.left
  split
  · exact h.settled (by omega)
  · exact h

/-- Bringing an entry before an index does what tracking its initial bunch from the start of the line does, when
the bunch that is tracked on, if any, can be copied. -/
theorem bunch_brought (h : entry.Stands beam rig m) {first : Nat}
    (hcopy : (entry.base first).next ≠ first → (entry.base first).bunch.copy = .ok (entry.base first).bunch) :
    CachedBunch.bunch <$> rig.brought m entry first = rig.transport (m.part 0 first) entry.initial := by
  rw [h.transport_base first, Rig.brought]
  split
  · rename_i hat
    have hnext : (entry.base first).next = first := by simpa [CachedBunch.isAt] using hat
    rw [hnext, Model.part_self]
    rfl
  · rename_i hat
    rw [hcopy (by simpa [CachedBunch.isAt] using hat)]
    change CachedBunch.bunch <$> (rig.transport _ _ >>= _) = _
    cases rig.transport (m.part (entry.base first).next first) (entry.base first).bunch <;> rfl

/-- Tracking a standing entry through a segment ends as tracking its initial bunch from the start of the line to the
end of the segment does, when every bunch that is copied on the way can be copied. -/
theorem tracked (h : entry.Stands beam rig m) {s : Segment} (hlast : s.last < m.length)
    (hpositive : ∀ stop ≤ s.first, ∀ b, rig.transport (m.part 0 stop) entry.initial = .ok b →
      Scalar.le b.momentum 0 = false) :
    rig.tracked m entry s = rig.transport (m.part 0 (s.last + 1)) entry.initial := by
  have hordered := s.ordered
  have hreached := (h.base s.first).reached
  rw [entry.initial_base s.first] at hreached
  have hcopy := Bunch.copy_eq_ok_iff.mpr ⟨hpositive _ (entry.next_base_le s.first) _ hreached, rfl⟩
  unfold Rig.tracked
  split
  · have hbunch := h.bunch_brought fun _ => hcopy
    rw [rig.transport_append m (Nat.le_succ_of_le hordered) (by omega), ← hbunch]
    cases hbrought : rig.brought m entry s.first with
    | error fault => rfl
    | ok entry' =>
      rw [hbrought] at hbunch
      have hcopy' : entry'.bunch.copy = .ok entry'.bunch :=
        Bunch.copy_eq_ok_iff.mpr ⟨hpositive s.first (Nat.le_refl _) _ hbunch.symm, rfl⟩
      change (entry'.bunch.copy >>= _) = rig.transport _ entry'.bunch
      rw [hcopy']
      rfl
  · rw [h.copy_initial]
    rfl

theorem tracked_fresh (h : entry.Stands beam rig m) {s : Segment}
    (hcopy : (entry.base s.first).next ≠ s.first →
      (entry.base s.first).bunch.copy = .ok (entry.base s.first).bunch) :
    rig.tracked m entry s = rig.tracked m (.fresh entry.initial) s := by
  have hbrought : CachedBunch.bunch <$> rig.brought m entry s.first =
      CachedBunch.bunch <$> rig.brought m (.fresh entry.initial) s.first := by
    rw [h.bunch_brought hcopy, (fresh h.created).bunch_brought fun _ => h.copy_initial]
    rfl
  unfold Rig.tracked
  split
  · have hbunch := congrArg (· >>= fun b : Bunch α => do
      let b ← b.copy
      rig.transport (m.part s.first (s.last + 1)) b) hbrought
    simpa only [bind_map_left] using hbunch
  · rfl

theorem copy_left (h : entry.Stands beam rig m) {s : Segment} (hlast : s.last < m.length)
    (hcopy : (entry.base s.first).bunch.copy = .ok (entry.base s.first).bunch) :
    ((rig.left m entry s).base s.first).next ≠ s.first →
      ((rig.left m entry s).base s.first).bunch.copy = .ok ((rig.left m entry s).base s.first).bunch := by
  have hordered := s.ordered
  intro hgap
  unfold Rig.left at hgap ⊢
  split at hgap
  · rename_i hincremental
    rw [if_pos hincremental]
    unfold Rig.settled at hgap ⊢
    cases hbrought : rig.brought m entry s.first with
    | error fault =>
      simp only [CachedBunch.base_of_next_le (entry.next_base_le s.first)]
      exact hcopy
    | ok entry' =>
      have hnext := (h.brought (by omega) hbrought).2.1
      simp only [hbrought, CachedBunch.base_of_next_le (Nat.le_of_eq hnext)] at hgap
      exact absurd hnext hgap
  · rename_i hincremental
    rw [if_neg hincremental]
    exact hcopy

end CachedBunch.Stands

end BeamOptics
