import BeamOptics.Proofs.Lattice.Part

/-!
# Bounds of segments

A part of a line is asked for by a segment or by two bounds, at several doors: of the line itself, of an accelerator,
of a solver. The checks behind them differ in kind and order. All let the same bounds in, and refuse the others with
faults of one sort.
-/

namespace BeamOptics

/-- The faults that refuse something as a segment of a line. -/
def Fault.isSegment : Fault → Bool
  | emptyLine _ | zeroLength _ | indexOutside .. | reversedRange .. => true
  | segmentArgument _ | invalidSegment .. | beyondLine .. => true
  | _ => false

/-- Two bounds as one value. -/
def Datum.pair (first last : Int) : Datum := .list [.int first, .int last]

/-- Bounds can be given as a segment or as a pair. -/
inductive SegmentArgument.Gives : SegmentArgument → Int → Int → Prop
  | segment (s : Segment) : Gives (.segment s) s.first s.last
  | pair (first last : Int) : Gives (.untyped (.pair first last)) first last

theorem Segment.exists_of_ordered {first last : Int} (hfirst : 0 ≤ first) (hordered : first ≤ last) :
    ∃ s : Segment, first = s.first ∧ last = s.last := by
  refine ⟨⟨first.toNat, last.toNat, by omega⟩, ?_, ?_⟩
  · exact (Int.toNat_of_nonneg hfirst).symm
  · exact (Int.toNat_of_nonneg (Int.le_trans hfirst hordered)).symm

namespace Model

variable {α β : Type}

/-- The segment of the line between two bounds, if there is one. -/
def segment? (m : Model α) (first last : Int) : Option Segment :=
  (Segment.between? first last).filter fun s => s.last < m.length

theorem segment?_eq_some_iff {m : Model α} {first last : Int} {s : Segment} :
    m.segment? first last = some s ↔ first = s.first ∧ last = s.last ∧ s.last < m.length := by
  rw [segment?, Option.filter_eq_some_iff, Segment.between?_eq_some_iff, decide_eq_true_eq, and_assoc]

theorem isSome_segment?_iff {m : Model α} {first last : Int} :
    (m.segment? first last).isSome = true ↔ 0 ≤ first ∧ first ≤ last ∧ last < m.length := by
  rw [Option.isSome_iff_exists]
  constructor
  · rintro ⟨s, hs⟩
    obtain ⟨rfl, rfl, hlast⟩ := segment?_eq_some_iff.mp hs
    have hordered := s.ordered
    omega
  · rintro ⟨hfirst, hordered, hlast⟩
    obtain ⟨s, rfl, rfl⟩ := Segment.exists_of_ordered hfirst hordered
    exact ⟨s, segment?_eq_some_iff.mpr ⟨rfl, rfl, Int.ofNat_lt.mp hlast⟩⟩

/-- An outcome is what `f` makes of the segment between two bounds, or the refusal of bounds that have none. -/
def Settles (m : Model α) (first last : Int) (f : Segment → Except Fault β) (r : Except Fault β) : Prop :=
  match m.segment? first last with
  | some s => r = f s
  | none => ∃ fault, r = .error fault ∧ fault.isSegment = true

namespace Settles

variable {m : Model α} {first last : Int} {f : Segment → Except Fault β} {r : Except Fault β}

theorem intro (hin : ∀ s : Segment, first = s.first → last = s.last → s.last < m.length → r = f s)
    (hout : ¬(0 ≤ first ∧ first ≤ last ∧ last < m.length) → ∃ fault, r = .error fault ∧ fault.isSegment = true) :
    m.Settles first last f r := by
  unfold Settles
  cases hsegment : m.segment? first last with
  | some s =>
    obtain ⟨hfirst, hlast, hinside⟩ := segment?_eq_some_iff.mp hsegment
    exact hin s hfirst hlast hinside
  | none =>
    refine hout fun hinside => ?_
    rw [← isSome_segment?_iff, hsegment] at hinside
    cases hinside

/-- What goes on with the segment that was found, and ends with a refusal of it, settles the same bounds. -/
theorem follow {found : Except Fault Segment} (h : m.Settles first last .ok found)
    (hfound : ∀ s, found = .ok s → r = f s) (hrefused : ∀ fault, found = .error fault → r = .error fault) :
    m.Settles first last f r := by
  unfold Settles at h ⊢
  cases hsegment : m.segment? first last with
  | some s =>
    rw [hsegment] at h
    exact hfound s h
  | none =>
    rw [hsegment] at h
    obtain ⟨fault, hfault, hkind⟩ := h
    exact ⟨fault, hrefused fault hfault, hkind⟩

theorem exists_of_ok (h : m.Settles first last f r) {b : β} (hr : r = .ok b) :
    ∃ s : Segment, s.last < m.length ∧ f s = .ok b := by
  unfold Settles at h
  cases hsegment : m.segment? first last with
  | some s =>
    rw [hsegment, hr] at h
    exact ⟨s, (segment?_eq_some_iff.mp hsegment).2.2, h.symm⟩
  | none =>
    rw [hsegment, hr] at h
    obtain ⟨fault, hfault, -⟩ := h
    cases hfault

end Settles

theorem checkIndex_of_not {m : Model α} {index : Int} (h : ¬(0 ≤ index ∧ index < m.length)) :
    m.checkIndex index = .error (.indexOutside (toString index) m.name m.length) := by
  rw [checkIndex, if_pos (by omega)]

theorem subrange_of_last_lt {m : Model α} {s : Segment} (h : s.last < m.length) :
    m.subrange s.first s.last = .ok (m.slice s) := by
  rw [subrange_eq_part s.ordered h, slice_eq_part]

theorem settles_subrange (m : Model α) (first last : Int) :
    m.Settles first last (fun s => .ok (m.slice s)) (m.subrange first last) := by
  apply Settles.intro
  · rintro s rfl rfl hlast
    exact subrange_of_last_lt hlast
  · intro hout
    unfold subrange
    split
    · refine ⟨_, rfl, ?_⟩
      split <;> rfl
    · rename_i s hsegment
      obtain ⟨rfl, rfl⟩ := Segment.between?_eq_some_iff.mp hsegment
      have hordered := s.ordered
      by_cases hfirst : s.first < m.length
      · refine ⟨.indexOutside (toString (s.last : Int)) m.name m.length, ?_, rfl⟩
        rw [checkIndex_of_lt hfirst, checkIndex_of_not (by omega)]
        rfl
      · refine ⟨.indexOutside (toString (s.first : Int)) m.name m.length, ?_, rfl⟩
        rw [checkIndex_of_not (by omega)]
        rfl

end Model

namespace SegmentArgument

variable {α : Type}

/-! ### A segment, or a pair of bounds -/

theorem compare_int (r : Datum.Relation) (a b : Int) :
    compare r (.int a) (.int b) = .ok (r.holds (some (Ord.compare a b))) := rfl

theorem compare_less_int (a b : Int) : compare .less (.int a) (.int b) = .ok (decide (a < b)) := by
  rw [compare_int, Except.ok.injEq, Bool.eq_iff_iff, decide_eq_true_eq, ← Int.compare_eq_lt]
  exact beq_iff_eq.trans Option.some_inj

theorem compare_greater_int (a b : Int) : compare .greater (.int a) (.int b) = .ok (decide (b < a)) := by
  rw [compare_int, Except.ok.injEq, Bool.eq_iff_iff, decide_eq_true_eq, ← Int.compare_eq_gt]
  exact beq_iff_eq.trans Option.some_inj

theorem atLeastZero_nat (n : Nat) : Segment.atLeastZero (.int n) = .ok (n : Int) := by
  rw [Segment.atLeastZero, Rule.only]
  change (if decide (0 ≤ (n : Int)) = true then pure (n : Int) else Rule.refuse .greaterThanEqual) = _
  rw [decide_eq_true (Int.natCast_nonneg n)]
  rfl

theorem ofBounds_eq_ok (s : Segment) : Segment.ofBounds (.int s.first) (.int s.last) = .ok s := by
  have hfill {entries : List (String × Datum)} {name : String} {n : Nat} (hentry : entries.lookup name = some (.int n))
      (put : Int → Segment.Bounds → Segment.Bounds) (draft : Segment.Bounds) :
      Form.fillField entries (Field.of name true Segment.atLeastZero put) draft [] = .ok (put n draft, []) := by
    have hrule : (Field.of name true Segment.atLeastZero put).fill (.int n) = .ok (put n) := by
      change (Segment.atLeastZero (.int n)).map put = _
      rw [atLeastZero_nat]
      rfl
    have hlookup : entries.lookup (Field.of name true Segment.atLeastZero put).name = some (.int n) := hentry
    rw [Form.fillField, hlookup]
    simp only [hrule]
  have hbetween : Segment.between? s.first s.last = some s := Segment.between?_eq_some_iff.mpr ⟨rfl, rfl⟩
  have hfinish : Segment.form.finish ⟨s.first, s.last⟩ = .ok s := by
    change Segment.finish ⟨s.first, s.last⟩ = _
    rw [Segment.finish, hbetween]
  have hfields : Form.fillFields [("first", .int s.first), ("last", .int s.last)] Segment.form.fields
      Segment.form.blank [] = .ok (⟨s.first, s.last⟩, []) := by
    rw [Segment.form, Form.fillFields, hfill rfl]
    change Form.fillFields _ _ _ _ = _
    rw [Form.fillFields, hfill rfl]
    rfl
  have hextras : Segment.form.extras [("first", .int s.first), ("last", .int s.last)] = [] := rfl
  rw [Segment.ofBounds, Form.read, hfields]
  simp only [bind, Except.bind, hextras, List.nil_append, hfinish]

theorem compare_lessEqual_int (a b : Int) : compare .lessEqual (.int a) (.int b) = .ok (decide (a ≤ b)) := by
  have hholds : Datum.Relation.lessEqual.holds (some (Ord.compare a b)) = decide (a ≤ b) := by
    rw [Bool.eq_iff_iff, decide_eq_true_eq, ← Int.isLE_compare, Datum.Relation.holds]
    cases Ord.compare a b <;> decide
  rw [compare_int, hholds]

theorem index_int (m : Model α) (i : Int) : index m (.int i) = m.checkIndex i := by
  rw [index, compare_less_int, compare_lessEqual_int]
  change (if (decide (i < 0) || decide ((m.length : Int) ≤ i)) = true then _ else _) = _
  by_cases hinside : 0 ≤ i ∧ i < m.length
  · rw [decide_eq_false (by omega), decide_eq_false (by omega), Model.checkIndex_eq_ok_iff.mpr hinside]
    rfl
  · have hbeyond : (decide (i < 0) || decide ((m.length : Int) ≤ i)) = true := by
      rw [Bool.or_eq_true, decide_eq_true_eq, decide_eq_true_eq]
      omega
    rw [if_pos hbeyond, Model.checkIndex_of_not hinside]
    rfl

theorem rangeBetween_int (m : Model α) (first last : Int) :
    rangeBetween m (.int first) (.int last) =
      if last < first then .error (.reversedRange (toString first) (toString last))
      else m.checkIndex first >>= fun _ => m.checkIndex last >>= fun _ => m.subrange first last := by
  rw [← index_int, ← index_int]
  unfold rangeBetween
  rw [compare_greater_int]
  by_cases hreversed : last < first
  · rw [decide_eq_true hreversed, if_pos hreversed]
    rfl
  · rw [decide_eq_false hreversed, if_neg hreversed]
    rfl

theorem settles_rangeBetween (m : Model α) (first last : Int) :
    m.Settles first last (fun s => .ok (m.slice s)) (rangeBetween m (.int first) (.int last)) := by
  rw [rangeBetween_int]
  apply Model.Settles.intro
  · rintro s rfl rfl hlast
    have hordered := s.ordered
    rw [if_neg (by omega), Model.checkIndex_of_lt (by omega), Model.checkIndex_of_lt hlast]
    exact Model.subrange_of_last_lt hlast
  · intro hout
    by_cases hreversed : last < first
    · rw [if_pos hreversed]
      exact ⟨_, rfl, rfl⟩
    · rw [if_neg hreversed]
      by_cases hfirst : 0 ≤ first ∧ first < m.length
      · have hlast : ¬(0 ≤ last ∧ last < m.length) := by omega
        rw [Model.checkIndex_eq_ok_iff.mpr hfirst, Model.checkIndex_of_not hlast]
        exact ⟨_, rfl, rfl⟩
      · rw [Model.checkIndex_of_not hfirst]
        exact ⟨_, rfl, rfl⟩

theorem within_of_last_lt {m : Model α} {s : Segment} (h : s.last < m.length) : within m s = .ok s := by
  rw [within, Model.fullSegment_eq_ok_iff.mpr ⟨by omega, rfl⟩]
  change (if m.length - 1 < s.last then _ else _) = _
  rw [if_neg (by omega)]
  rfl

theorem within_of_length_le {m : Model α} {s : Segment} (h : m.length ≤ s.last) :
    ∃ fault, within m s = .error fault ∧ fault.isSegment = true := by
  by_cases hpositive : 0 < m.length
  · refine ⟨.beyondLine s ⟨0, m.length - 1, Nat.zero_le _⟩, ?_, rfl⟩
    rw [within, Model.fullSegment_eq_ok_iff.mpr ⟨hpositive, rfl⟩]
    change (if m.length - 1 < s.last then _ else _) = _
    rw [if_pos (by omega)]
    rfl
  · have hempty : m.elements = [] := List.eq_nil_of_length_eq_zero (Nat.eq_zero_of_not_pos hpositive)
    refine ⟨.emptyLine m.name, ?_, rfl⟩
    rw [within, Model.fullSegment, hempty]
    rfl

theorem resolve_pair (m : Model α) (first last : Int) :
    (untyped (.pair first last)).resolve m =
      if last < first ∨ first < 0 then .error (.invalidSegment (toString first) (toString last))
      else Segment.ofBounds (.int first) (.int last) >>= within m := by
  have hresolve : (untyped (.pair first last)).resolve m = (do
      let reversed ← compare .greater (.int first) (.int last)
      let negative ← if reversed then pure true else compare .less (.int first) (.int 0)
      if negative then throw (.invalidSegment (toString first) (toString last))
      let s ← Segment.ofBounds (.int first) (.int last)
      within m s) := rfl
  rw [hresolve, compare_greater_int, compare_less_int]
  by_cases hreversed : last < first
  · rw [decide_eq_true hreversed, if_pos (.inl hreversed)]
    rfl
  · by_cases hnegative : first < 0
    · rw [decide_eq_false hreversed, decide_eq_true hnegative, if_pos (.inr hnegative)]
      rfl
    · rw [decide_eq_false hreversed, decide_eq_false hnegative, if_neg (by omega)]
      rfl

theorem settles_within (m : Model α) (s : Segment) : m.Settles s.first s.last .ok (within m s) := by
  have hordered := s.ordered
  apply Model.Settles.intro
  · intro s' hfirst hlast hinside
    have hbetween := Segment.between?_eq_some_iff.mpr ⟨hfirst, hlast⟩
    rw [Segment.between?_eq_some_iff.mpr ⟨rfl, rfl⟩] at hbetween
    obtain rfl := Option.some.inj hbetween
    exact within_of_last_lt hinside
  · intro hout
    exact within_of_length_le (by omega)

theorem Gives.settles_resolve {argument : SegmentArgument} {first last : Int} (h : argument.Gives first last)
    (m : Model α) : m.Settles first last .ok (argument.resolve m) := by
  cases h with
  | segment s => exact settles_within m s
  | pair first last =>
    rw [resolve_pair]
    by_cases hordered : last < first ∨ first < 0
    · rw [if_pos hordered]
      exact .intro (fun s _ _ _ => by have := s.ordered; omega) fun _ => ⟨_, rfl, rfl⟩
    · rw [if_neg hordered]
      have hvalid : 0 ≤ first ∧ first ≤ last := by omega
      obtain ⟨s, rfl, rfl⟩ := Segment.exists_of_ordered hvalid.1 hvalid.2
      rw [ofBounds_eq_ok]
      exact settles_within m s

theorem Gives.settles_range {argument : SegmentArgument} {first last : Int} (h : argument.Gives first last)
    (m : Model α) : m.Settles first last (fun s => .ok (m.slice s)) (argument.range m) := by
  cases h with
  | segment s => exact m.settles_subrange s.first s.last
  | pair first last => exact settles_rangeBetween m first last

end SegmentArgument

end BeamOptics
