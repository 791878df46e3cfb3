import BeamOptics.Lattice.Bounds
import BeamOptics.Proofs.Lattice.Distinct
import BeamOptics.Proofs.Tracking.Transport

/-!
# Parts of a line

A part runs from one index up to, but not including, another one. Parts that meet make up a part, and so transport
through a part is transport through its pieces. Segments and subranges of a line are parts of it, and a line that
has grown has the parts that it had.
-/

namespace BeamOptics

namespace Model

variable {α : Type}

/-- The elements from index `first` up to index `stop`. -/
def part (m : Model α) (first stop : Nat) : Range α := ⟨first, (m.elements.drop first).take (stop - first)⟩

theorem slice_eq_part (m : Model α) (s : Segment) : m.slice s = m.part s.first (s.last + 1) := by
  have hordered := s.ordered
  have hlength : s.length = s.last + 1 - s.first := by
    rw [Segment.length]
    omega
  rw [slice, part, hlength]

@[simp] theorem part_self (m : Model α) (first : Nat) : m.part first first = ⟨first, []⟩ := by
  rw [part, Nat.sub_self, List.take_zero]

theorem length_part {m : Model α} {first stop : Nat} (hstop : stop ≤ m.length) :
    (m.part first stop).elements.length = stop - first := by
  rw [length] at hstop
  simp only [part, List.length_take, List.length_drop]
  omega

theorem getElem?_part (m : Model α) {first stop i : Nat} (hfirst : first ≤ i) (hstop : i < stop) :
    (m.part first stop).elements[i - first]? = m.elements[i]? := by
  rw [part, List.getElem?_take_of_lt (by omega), List.getElem?_drop, Nat.add_sub_cancel' hfirst]

theorem take_part (m : Model α) {first stop i : Nat} (hfirst : first ≤ i) (hstop : i < stop) :
    (m.part first stop).elements.take (i - first + 1) = (m.part first (i + 1)).elements := by
  rw [part, part, List.take_take, Nat.min_eq_left (by omega), Nat.sub_add_comm hfirst]

theorem at?_part (m : Model α) {first stop i : Nat} (hfirst : first ≤ i) (hstop : i < stop) :
    (m.part first stop).at? i = m.elements[i]? :=
  (if_pos hfirst).trans (m.getElem?_part hfirst hstop)

theorem exists_index_of_mem_part {m : Model α} {first stop : Nat} {e : Element α}
    (h : e ∈ (m.part first stop).elements) : ∃ i, first ≤ i ∧ i < stop ∧ m.elements[i]? = some e := by
  obtain ⟨j, hj, rfl⟩ := List.getElem_of_mem h
  have hstop : j < stop - first := by
    simp only [part, List.length_take] at hj
    omega
  refine ⟨first + j, Nat.le_add_right first j, by omega, ?_⟩
  rw [← m.getElem?_part (Nat.le_add_right first j) (show first + j < stop by omega), Nat.add_sub_cancel_left]
  exact List.getElem?_eq_getElem hj

theorem tag_not_mem_part {m : Model α} (hdistinct : (m.elements.map Element.tag).Nodup) {i : Nat} {e : Element α}
    (he : m.elements[i]? = some e) {first stop : Nat} (hnone : (m.part first stop).at? i = none) :
    e.tag ∉ (m.part first stop).monitorTags := by
  intro htag
  obtain ⟨f, hf, hsame⟩ := List.mem_map.mp htag
  obtain ⟨j, hfirst, hstop, hj⟩ := exists_index_of_mem_part (List.mem_filter.mp hf).1
  obtain rfl := index_inj hdistinct he hj hsame.symm
  rw [m.at?_part hfirst hstop, he] at hnone
  cases hnone

theorem sublist_part (m : Model α) (first stop : Nat) : (m.part first stop).elements.Sublist m.elements :=
  (List.take_sublist _ _).trans (List.drop_sublist _ _)

theorem elements_part_append (m : Model α) {first middle stop : Nat} (hfirst : first ≤ middle)
    (hstop : middle ≤ stop) :
    (m.part first middle).elements ++ (m.part middle stop).elements = (m.part first stop).elements := by
  have hlength : stop - first = (middle - first) + (stop - middle) := by omega
  have hdrop : m.elements.drop middle = (m.elements.drop first).drop (middle - first) := by
    rw [List.drop_drop]
    congr 1
    omega
  simp only [part, hlength, hdrop]
  exact (List.take_add ..).symm

theorem part_of_isPrefix {m m' : Model α} (hgrown : m.elements <+: m'.elements) {first stop : Nat}
    (hstop : stop ≤ m.length) : m'.part first stop = m.part first stop := by
  obtain ⟨added, hadded⟩ := hgrown
  rw [length] at hstop
  by_cases hfirst : first ≤ m.elements.length
  · rw [part, part, ← hadded, List.drop_append_of_le_length hfirst, List.take_append_of_le_length]
    rw [List.length_drop]
    omega
  · have hempty : stop - first = 0 := by omega
    rw [part, part, hempty, List.take_zero, List.take_zero]

theorem checkIndex_eq_ok_iff {m : Model α} {index : Int} :
    m.checkIndex index = .ok () ↔ 0 ≤ index ∧ index < m.length := by
  unfold checkIndex
  split
  · exact iff_of_false (by simp) (by omega)
  · exact iff_of_true rfl (by omega)

theorem checkIndex_of_lt {m : Model α} {index : Nat} (h : index < m.length) : m.checkIndex index = .ok () :=
  checkIndex_eq_ok_iff.mpr ⟨Int.natCast_nonneg index, Int.ofNat_lt.mpr h⟩

theorem fullSegment_eq_ok_iff {m : Model α} {s : Segment} :
    m.fullSegment = .ok s ↔ 0 < m.length ∧ s = ⟨0, m.length - 1, Nat.zero_le _⟩ := by
  unfold fullSegment
  cases hempty : m.elements.isEmpty with
  | true =>
    have hlength : m.length = 0 := List.length_eq_zero_iff.mpr (List.isEmpty_iff.mp hempty)
    exact iff_of_false (by simp) fun h => absurd h.1 (by omega)
  | false =>
    have hpositive : 0 < m.length := List.length_pos_iff.mpr (List.isEmpty_eq_false_iff.mp hempty)
    exact ⟨fun h => ⟨hpositive, (Except.ok.inj h).symm⟩, fun h => congrArg Except.ok h.2.symm⟩

theorem last_lt_of_fullSegment {m : Model α} {s : Segment} (h : m.fullSegment = .ok s) : s.last < m.length := by
  obtain ⟨hpositive, rfl⟩ := fullSegment_eq_ok_iff.mp h
  exact Nat.sub_lt hpositive Nat.one_pos

theorem mem_of_mem_beamline {m : Model α} {line : Range α} (h : m.beamline = .ok line) {e : Element α}
    (he : e ∈ line.elements) : e ∈ m.elements := by
  obtain ⟨full, -, hslice⟩ := bind_eq_ok_iff.mp h
  obtain rfl := Except.ok.inj hslice
  exact List.mem_of_mem_drop (List.mem_of_mem_take he)

theorem subrange_eq_part {m : Model α} {first last : Nat} (hordered : first ≤ last) (hlast : last < m.length) :
    m.subrange first last = .ok (m.part first (last + 1)) := by
  have hsegment : Segment.between? first last = some ⟨first, last, hordered⟩ :=
    Segment.between?_eq_some_iff.mpr ⟨rfl, rfl⟩
  rw [subrange, hsegment]
  simp only [checkIndex_of_lt (Nat.lt_of_le_of_lt hordered hlast), checkIndex_of_lt hlast, slice_eq_part]
  rfl

theorem eq_part_of_subrange {m : Model α} {first last : Nat} {r : Range α} (h : m.subrange first last = .ok r) :
    r = m.part first (last + 1) := by
  unfold subrange at h
  split at h
  · cases h
  · rename_i s hsegment
    obtain ⟨hfirst, hlast⟩ := Segment.between?_eq_some_iff.mp hsegment
    obtain ⟨_, -, h⟩ := bind_eq_ok_iff.mp h
    obtain ⟨_, -, h⟩ := bind_eq_ok_iff.mp h
    obtain rfl := Except.ok.inj h
    rw [m.slice_eq_part, ← Int.ofNat.inj hfirst, ← Int.ofNat.inj hlast]

/-- The part before an index, as a range that ends at the index before it. -/
theorem subrange_pred_eq_part {m : Model α} {first stop : Nat} (hfirst : first < stop) (hstop : stop ≤ m.length) :
    m.subrange first ((stop : Int) - 1) = .ok (m.part first stop) := by
  have hcast : (stop : Int) - 1 = ((stop - 1 : Nat) : Int) := by omega
  rw [hcast, subrange_eq_part (by omega) (by omega), Nat.sub_add_cancel (by omega)]

theorem transport_part_append [Scalar α] (m : Model α) (processes : List (BeamProcess α)) (signals : Signals α)
    {first middle stop : Nat} (hfirst : first ≤ middle) (hmiddle : middle ≤ stop) (hlength : middle ≤ m.length)
    (b : Bunch α) :
    (m.part first stop).transport processes signals b =
      (m.part first middle).transport processes signals b >>= (m.part middle stop).transport processes signals := by
  have hindex : first + (m.part first middle).elements.length = middle := by
    rw [length_part hlength]
    omega
  have happend := Range.transport_append processes signals first (m.part first middle).elements
    (m.part middle stop).elements b
  rw [elements_part_append m hfirst hmiddle, hindex] at happend
  exact happend

end Model

namespace SegmentArgument

variable {α : Type}

theorem last_lt_of_within {m : Model α} {s s' : Segment} (h : within m s = .ok s') : s'.last < m.length := by
  obtain ⟨full, hfull, hrest⟩ := bind_eq_ok_iff.mp h
  have hlast := Model.last_lt_of_fullSegment hfull
  by_cases hbeyond : full.last < s.last
  · rw [if_pos hbeyond] at hrest
    cases hrest
  · rw [if_neg hbeyond] at hrest
    obtain rfl := Except.ok.inj hrest
    omega

theorem last_lt_of_resolve {m : Model α} {argument : SegmentArgument} {s : Segment}
    (h : argument.resolve m = .ok s) : s.last < m.length := by
  cases argument with
  | segment given => exact last_lt_of_within h
  | untyped d =>
    unfold resolve at h
    dsimp only at h
    split at h
    · exact absurd h (by simp)
    · rename_i first last hpair
      have hbounded (negative : Bool)
          (hrest : (do
            if negative then throw (.invalidSegment first.display last.display)
            let s ← Segment.ofBounds first last
            within m s : Except Fault Segment) = .ok s) : s.last < m.length := by
        cases negative with
        | true => exact absurd hrest (by simp [bind, Except.bind, throw, throwThe, MonadExceptOf.throw])
        | false =>
          obtain ⟨given, -, hgiven⟩ := bind_eq_ok_iff.mp hrest
          exact last_lt_of_within hgiven
      obtain ⟨reversed, -, h⟩ := bind_eq_ok_iff.mp h
      split at h
      · obtain ⟨negative, -, h⟩ := bind_eq_ok_iff.mp h
        exact hbounded negative h
      · obtain ⟨negative, -, h⟩ := bind_eq_ok_iff.mp h
        exact hbounded negative h

end SegmentArgument

end BeamOptics
