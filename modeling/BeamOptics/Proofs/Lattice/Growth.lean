import BeamOptics.Proofs.Lattice.Bounds

/-!
# Lines that grow

What a line accepts, when it is built and later on, is what keeps it well formed: distinct names, and sources that drive
elements of the line. It grows at its end only, so whatever denotes elements of the line goes on to denote the same
ones: an index, a range, a segment, a location that tracking has reached.
-/

namespace BeamOptics

theorem getElem?_of_isPrefix {β : Type} {known all : List β} (h : known <+: all) {i : Nat} {b : β}
    (hb : known[i]? = some b) : all[i]? = some b := by
  obtain ⟨hi, rfl⟩ := List.getElem?_eq_some_iff.mp hb
  exact List.prefix_iff_getElem?.mp h i hi

namespace Model

variable {α : Type}

/-- Distinct names, and sources that drive elements of the line. -/
structure WellFormed (m : Model α) : Prop where
  distinct : (m.elements.map Element.name).Nodup
  driven : ∀ s ∈ m.sources, ∀ i ∈ s.indexes, 0 ≤ i ∧ i < m.length

/-- What a line has become by additions. -/
structure GrownTo (m m' : Model α) : Prop where
  name : m'.name = m.name
  elements : m.elements <+: m'.elements
  sources : m.sources <+: m'.sources

namespace GrownTo

theorem refl (m : Model α) : m.GrownTo m := ⟨rfl, List.prefix_rfl, List.prefix_rfl⟩

theorem trans {m₁ m₂ m₃ : Model α} (h : m₁.GrownTo m₂) (h' : m₂.GrownTo m₃) : m₁.GrownTo m₃ :=
  ⟨h'.name.trans h.name, h.elements.trans h'.elements, h.sources.trans h'.sources⟩

variable {m m' : Model α}

theorem length_le (h : m.GrownTo m') : m.length ≤ m'.length := h.elements.length_le

theorem part (h : m.GrownTo m') (first : Nat) {stop : Nat} (hstop : stop ≤ m.length) :
    m'.part first stop = m.part first stop := Model.part_of_isPrefix h.elements hstop

theorem slice (h : m.GrownTo m') {s : Segment} (hlast : s.last < m.length) : m'.slice s = m.slice s := by
  rw [slice_eq_part, slice_eq_part, h.part _ hlast]

end GrownTo

/-! ### What a line accepts -/

theorem hasElement_iff {m : Model α} {name : String} : m.hasElement name = true ↔ name ∈ m.elements.map Element.name := by
  rw [hasElement, List.any_eq_true, List.mem_map]
  exact exists_congr fun e => and_congr_right fun _ => beq_iff_eq

theorem addElement_eq_ok_iff {m m' : Model α} {e : Element α} :
    m.addElement e = .ok m' ↔
      e.name ∉ m.elements.map Element.name ∧ m' = { m with elements := m.elements ++ [e] } := by
  rw [addElement, ← hasElement_iff]
  split
  · rename_i hrepeated
    exact iff_of_false (by simp) fun h => h.1 hrepeated
  · rename_i hnew
    exact ⟨fun h => ⟨hnew, (Except.ok.inj h).symm⟩, fun h => congrArg Except.ok h.2.symm⟩

theorem checkSource_eq_ok_iff {m : Model α} {s : Source} :
    m.checkSource s = .ok () ↔ ∀ i ∈ s.indexes, 0 ≤ i ∧ i < m.length := by
  unfold checkSource
  constructor
  · intro h i hi
    cases hfind : s.indexes.find? fun i => i < 0 || (m.length : Int) ≤ i with
    | some j =>
      rw [hfind] at h
      cases h
    | none =>
      have hinside := List.find?_eq_none.mp hfind i hi
      simp only [Bool.or_eq_true, decide_eq_true_eq] at hinside
      omega
  · intro h
    have hfind : s.indexes.find? (fun i => i < 0 || (m.length : Int) ≤ i) = none := by
      refine List.find?_eq_none.mpr fun i hi => ?_
      have hinside := h i hi
      simp only [Bool.or_eq_true, decide_eq_true_eq]
      omega
    rw [hfind]

theorem addSource_eq_ok_iff {m m' : Model α} {s : Source} :
    m.addSource s = .ok m' ↔
      (∀ i ∈ s.indexes, 0 ≤ i ∧ i < m.length) ∧ m' = { m with sources := m.sources ++ [s] } := by
  rw [← checkSource_eq_ok_iff, addSource]
  constructor
  · intro h
    obtain ⟨⟨⟩, hcheck, hadded⟩ := bind_eq_ok_iff.mp h
    exact ⟨hcheck, (Except.ok.inj hadded).symm⟩
  · rintro ⟨hcheck, rfl⟩
    exact bind_eq_ok_iff.mpr ⟨(), hcheck, rfl⟩

theorem addMembers_eq_ok_iff {members : List (Option (Element α))} {m m' : Model α}
    (hdistinct : (m.elements.map Element.name).Nodup) :
    m.addMembers members = .ok m' ↔
      ∃ added, members = added.map some ∧ ((m.elements ++ added).map Element.name).Nodup ∧
        m' = { m with elements := m.elements ++ added } := by
  induction members generalizing m with
  | nil =>
    constructor
    · intro h
      obtain rfl := Except.ok.inj h
      refine ⟨[], rfl, ?_, ?_⟩ <;> rw [List.append_nil]
      exact hdistinct
    · rintro ⟨added, hadded, -, rfl⟩
      obtain rfl := List.map_eq_nil_iff.mp hadded.symm
      rw [List.append_nil]
      rfl
  | cons member rest ih =>
    cases member with
    | none =>
      refine iff_of_false nofun ?_
      rintro ⟨added, hadded, -⟩
      cases added <;> cases hadded
    | some e =>
      have hfirst {line : Model α} (hline : m.addElement e = .ok line) :
          line = { m with elements := m.elements ++ [e] } ∧ (line.elements.map Element.name).Nodup :=
        ⟨(addElement_eq_ok_iff.mp hline).2, nodup_names_of_addElement hline hdistinct⟩
      constructor
      · intro h
        obtain ⟨line, hline, hrest⟩ := bind_eq_ok_iff.mp h
        obtain ⟨rfl, hnames⟩ := hfirst hline
        obtain ⟨added, rfl, hall, rfl⟩ := (ih hnames).mp hrest
        rw [List.append_assoc] at hall
        exact ⟨e :: added, rfl, hall, by rw [List.append_assoc]; rfl⟩
      · rintro ⟨added, hadded, hall, rfl⟩
        obtain ⟨first, added, rfl, hhead, htail⟩ := List.map_eq_cons_iff.mp hadded.symm
        obtain rfl := Option.some.inj hhead
        have hnew : first.name ∉ m.elements.map Element.name := by
          rw [List.map_append, List.map_cons] at hall
          intro hmem
          exact (List.nodup_append.mp hall).2.2 _ hmem _ List.mem_cons_self rfl
        have hline := addElement_eq_ok_iff.mpr ⟨hnew, rfl⟩
        refine bind_eq_ok_iff.mpr ⟨_, hline, (ih (hfirst hline).2).mpr ⟨added, htail.symm, ?_, ?_⟩⟩ <;>
          rw [List.append_assoc]
        · exact hall
        · rfl

theorem addSources_eq_ok_iff {sources : List Source} {m m' : Model α} :
    m.addSources sources = .ok m' ↔
      (∀ s ∈ sources, ∀ i ∈ s.indexes, 0 ≤ i ∧ i < m.length) ∧ m' = { m with sources := m.sources ++ sources } := by
  induction sources generalizing m with
  | nil =>
    rw [List.append_nil]
    exact ⟨fun h => ⟨nofun, (Except.ok.inj h).symm⟩, fun h => congrArg Except.ok h.2.symm⟩
  | cons s rest ih =>
    rw [List.forall_mem_cons]
    constructor
    · intro h
      obtain ⟨driven, hdriven, hrest⟩ := bind_eq_ok_iff.mp h
      obtain ⟨hinside, rfl⟩ := addSource_eq_ok_iff.mp hdriven
      obtain ⟨hall, rfl⟩ := ih.mp hrest
      exact ⟨⟨hinside, hall⟩, by rw [List.append_assoc]; rfl⟩
    · rintro ⟨⟨hinside, hall⟩, rfl⟩
      refine bind_eq_ok_iff.mpr ⟨_, addSource_eq_ok_iff.mpr ⟨hinside, rfl⟩, ih.mpr ⟨hall, ?_⟩⟩
      rw [List.append_assoc]
      rfl

/-- A line is built from elements with distinct names and sources that drive elements among them, and from nothing
else. -/
theorem build_eq_ok_iff {name : String} {members : List (Option (Element α))} {sources : List Source} {m : Model α} :
    build name members sources = .ok m ↔
      name ≠ "" ∧ members = m.elements.map some ∧ m.WellFormed ∧ m.name = name ∧ m.sources = sources := by
  unfold build
  by_cases hname : name = ""
  · rw [if_pos hname]
    exact iff_of_false nofun fun h => h.1 hname
  · rw [if_neg hname]
    change addMembers { name } members >>= (addSources · sources) = .ok m ↔ _
    constructor
    · intro h
      obtain ⟨line, hline, hsources⟩ := bind_eq_ok_iff.mp h
      obtain ⟨added, rfl, hdistinct, rfl⟩ := (addMembers_eq_ok_iff (m := { name }) List.nodup_nil).mp hline
      obtain ⟨hdriven, rfl⟩ := addSources_eq_ok_iff.mp hsources
      exact ⟨hname, rfl, ⟨hdistinct, hdriven⟩, rfl, rfl⟩
    · rintro ⟨-, rfl, hm, rfl, rfl⟩
      have hline := (addMembers_eq_ok_iff (m := { name := m.name }) List.nodup_nil).mpr
        ⟨m.elements, rfl, hm.distinct, rfl⟩
      exact bind_eq_ok_iff.mpr ⟨_, hline, addSources_eq_ok_iff.mpr ⟨hm.driven, rfl⟩⟩

/-! ### Additions -/

/-- One addition to a line, of an element or of a source. -/
inductive Adds (m m' : Model α) : Prop
  | element (e : Element α) (h : m.addElement e = .ok m')
  | source (s : Source) (h : m.addSource s = .ok m')

theorem Adds.grownTo {m m' : Model α} (h : m.Adds m') : m.GrownTo m' := by
  cases h with
  | element e h =>
    obtain ⟨-, rfl⟩ := addElement_eq_ok_iff.mp h
    exact ⟨rfl, List.prefix_append _ _, List.prefix_rfl⟩
  | source s h =>
    obtain ⟨-, rfl⟩ := addSource_eq_ok_iff.mp h
    exact ⟨rfl, List.prefix_rfl, List.prefix_append _ _⟩

theorem WellFormed.adds {m m' : Model α} (hm : m.WellFormed) (h : m.Adds m') : m'.WellFormed := by
  cases h with
  | element e h =>
    refine ⟨nodup_names_of_addElement h hm.distinct, ?_⟩
    obtain ⟨-, rfl⟩ := addElement_eq_ok_iff.mp h
    intro s hs i hi
    obtain ⟨hlow, hhigh⟩ := hm.driven s hs i hi
    have hlength : m.length ≤ length { m with elements := m.elements ++ [e] } :=
      (List.prefix_append m.elements [e]).length_le
    exact ⟨hlow, by omega⟩
  | source s h =>
    obtain ⟨hinside, rfl⟩ := addSource_eq_ok_iff.mp h
    refine ⟨hm.distinct, fun t ht => ?_⟩
    rcases List.mem_append.mp ht with ht | ht
    · exact hm.driven t ht
    · obtain rfl := List.mem_singleton.mp ht
      exact hinside

/-! ### Ranges of a line -/

/-- The range is a part of the line, which it may have been taken from earlier. -/
def Spans (m : Model α) (r : Range α) : Prop := ∃ s : Segment, s.last < m.length ∧ m.slice s = r

theorem spans_of_subrange {m : Model α} {first last : Int} {r : Range α} (h : m.subrange first last = .ok r) :
    m.Spans r := by
  obtain ⟨s, hlast, hslice⟩ := (m.settles_subrange first last).exists_of_ok h
  exact ⟨s, hlast, Except.ok.inj hslice⟩

theorem spans_of_beamline {m : Model α} {r : Range α} (h : m.beamline = .ok r) : m.Spans r := by
  obtain ⟨full, hfull, h⟩ := bind_eq_ok_iff.mp h
  exact ⟨full, last_lt_of_fullSegment hfull, Except.ok.inj h⟩

/-- Later the same bounds give the same range. -/
theorem Spans.slice_span {m : Model α} {r : Range α} (h : m.Spans r) : m.slice r.span = r := by
  obtain ⟨s, hlast, rfl⟩ := h
  have hordered := s.ordered
  have hlength : (m.slice s).elements.length = s.last + 1 - s.first := by
    rw [slice_eq_part, length_part hlast]
  have hspan : (m.slice s).span = s := by
    have hstop : (m.slice s).last = s.last := by
      rw [Range.last, hlength]
      change s.first + _ = _
      omega
    simp only [Range.span, hstop]
    rfl
  rw [hspan]

theorem Spans.grown {m m' : Model α} {r : Range α} (h : m.Spans r) (hgrown : m.GrownTo m') : m'.Spans r := by
  obtain ⟨s, hlast, rfl⟩ := h
  exact ⟨s, Nat.lt_of_lt_of_le hlast hgrown.length_le, hgrown.slice hlast⟩

/-- What was obtained from a line denotes in what the line has become what it denoted before: indexes and the elements
and sources at them, segments, ranges, and places that tracking has reached. -/
structure Endures (m m' : Model α) : Prop where
  element : ∀ (i : Nat) (e : Element α), m.elements[i]? = some e → m'.elements[i]? = some e
  source : ∀ (i : Nat) (s : Source), m.sources[i]? = some s → m'.sources[i]? = some s
  segment : ∀ s : Segment, s.last < m.length → s.last < m'.length ∧ m'.slice s = m.slice s
  range : ∀ r : Range α, m.Spans r → m'.Spans r ∧ m'.slice r.span = r
  passed : ∀ stop ≤ m.length, m'.part 0 stop = m.part 0 stop

theorem GrownTo.endures {m m' : Model α} (h : m.GrownTo m') : m.Endures m' where
  element _ _ := getElem?_of_isPrefix h.elements
  source _ _ := getElem?_of_isPrefix h.sources
  segment _ hlast := ⟨Nat.lt_of_lt_of_le hlast h.length_le, h.slice hlast⟩
  range _ hr := ⟨hr.grown h, (hr.grown h).slice_span⟩
  passed _ hstop := h.part 0 hstop

/-! ### Indexes by name -/

theorem sublist_indexesWhere (m : Model α) (p : String → Bool) : (m.indexesWhere p).Sublist (List.range m.length) := by
  have hall : m.elements.zipIdx.map Prod.snd = List.range m.length := by
    rw [List.zipIdx_map_snd, ← List.range_eq_range']
    rfl
  rw [← hall]
  exact List.filter_sublist.map Prod.snd

/-- The names of the elements at some indexes of the line, in the order of the line, are distinct. -/
theorem WellFormed.nodup_names {m : Model α} (hm : m.WellFormed) {indexes : List Nat}
    (h : indexes.Sublist (List.range m.length)) :
    (indexes.map fun i => m.elements[i]?.map Element.name).Nodup := by
  have hall : (List.range m.length).map (fun i => m.elements[i]?.map Element.name) =
      (m.elements.map Element.name).map some := by
    refine List.ext_getElem (by simp [length]) fun i hi hi' => ?_
    have hindex : i < m.elements.length := by simpa [length] using hi
    simp [List.getElem?_eq_getElem hindex]
  have hnodup : ((List.range m.length).map fun i => m.elements[i]?.map Element.name).Nodup := by
    rw [hall]
    exact hm.distinct.map fun _ _ => Option.some.inj
  exact hnodup.sublist (h.map _)

end Model

theorem SegmentArgument.spans_of_rangeBetween {α : Type} {m : Model α} {first last : Datum} {r : Range α}
    (h : rangeBetween m first last = .ok r) : m.Spans r := by
  obtain ⟨reversed, -, h⟩ := bind_eq_ok_iff.mp h
  cases reversed with
  | true => cases h
  | false =>
    obtain ⟨_, -, h⟩ := bind_eq_ok_iff.mp h
    obtain ⟨_, -, h⟩ := bind_eq_ok_iff.mp h
    split at h
    · cases h
    · cases h
    · exact Model.spans_of_subrange h

end BeamOptics
