import BeamOptics.Beam.Stack

/-!
# Particles from arrays

An array lists particles if it is empty, if it is a single vector, or if its rows are vectors. From such an array a
bunch takes the particles in their order. Arrays with more axes are looked at no further than their second axis: with
six entries along it they are kept as they are, and all others are refused.
-/

namespace BeamOptics

namespace PhaseVector

variable {α : Type}

theorem ofList?_eq_some_iff {values : List α} {v : PhaseVector α} : ofList? values = some v ↔ values = v.toList := by
  constructor
  · intro h
    unfold ofList? at h
    split at h
    · obtain rfl := Option.some.inj h
      rfl
    · cases h
  · rintro rfl
    exact ofList?_toList v

end PhaseVector

namespace Nested

variable {α : Type}

/-- The particles that an array lists. -/
inductive Lists : Nested α → List (PhaseVector α) → Prop
  | nothing {items : List (Nested α)} {shape : List Nat} (hshape : (node items).shape? = some shape)
    (hempty : (node items).leaves = []) : Lists (node items) []
  | vector (v : PhaseVector α) : Lists (Load.vector v) [v]
  | rows {rows : List (PhaseVector α)} (h : rows ≠ []) : Lists (node (rows.map Load.vector)) rows

/-- There are numbers in the array, six entries along its second axis, and axes behind that. -/
def IsDeep (a : Nested α) : Prop := a.leaves ≠ [] ∧ ∃ n k inner, a.shape? = some (n :: 6 :: k :: inner)

/-! ### Vectors and rows -/

/-- What is read item by item as what it was written from is the list that was written. -/
theorem mapM_eq_some_iff {ι β : Type} {read : ι → Option β} {write : β → ι}
    (h : ∀ i b, read i = some b ↔ i = write b) {items : List ι} {values : List β} :
    items.mapM read = some values ↔ items = values.map write := by
  induction items generalizing values with
  | nil => cases values <;> simp
  | cons item rest ih =>
    rw [List.mapM_cons]
    constructor
    · intro hread
      obtain ⟨b, hb, hread⟩ := Option.bind_eq_some_iff.mp hread
      obtain ⟨bs, hbs, hread⟩ := Option.bind_eq_some_iff.mp hread
      obtain rfl := Option.some.inj hread
      rw [List.map_cons, ← (h item b).mp hb, ← ih.mp hbs]
    · intro hwritten
      obtain ⟨b, bs, rfl, hitem, hrest⟩ := List.map_eq_cons_iff.mp hwritten.symm
      rw [(h item b).mpr hitem.symm, ih.mpr hrest.symm]
      rfl

theorem value?_eq_some_iff (a : Nested α) (b : α) : a.value? = some b ↔ a = leaf b := by
  cases a <;> simp [value?]

theorem row?_eq_some_iff (a : Nested α) (v : PhaseVector α) : a.row? = some v ↔ a = Load.vector v := by
  cases a with
  | leaf a => simp [row?, toList?, Load.vector, ofList]
  | node items =>
    simp only [row?, toList?, Option.bind_eq_some_iff, PhaseVector.ofList?_eq_some_iff,
      mapM_eq_some_iff value?_eq_some_iff, Load.vector, ofList, node.injEq, exists_eq_right]

/-! ### Shapes -/

@[simp] theorem shape?_vector (v : PhaseVector α) : (Load.vector v).shape? = some [6] := rfl

@[simp] theorem leaves_vector (v : PhaseVector α) : (Load.vector v).leaves = v.toList := rfl

theorem shapeList_vectors (rows : List (PhaseVector α)) : shapeList [6] (rows.map Load.vector) = [6] := by
  induction rows with
  | nil => rfl
  | cons v rest ih => exact ih

theorem hasShapeList_vectors (rows : List (PhaseVector α)) : hasShapeList [6] (rows.map Load.vector) = true := by
  induction rows with
  | nil => rfl
  | cons v rest ih => exact ih

theorem shape?_rows {rows : List (PhaseVector α)} (h : rows ≠ []) :
    (node (rows.map Load.vector)).shape? = some [rows.length, 6] := by
  obtain ⟨v, rest, rfl⟩ := List.exists_cons_of_ne_nil h
  have hshape : (node ((v :: rest).map Load.vector)).shape = [(v :: rest).length, 6] := by
    rw [List.map_cons, shape, List.length_cons, List.length_map]
    exact congrArg _ (shapeList_vectors rest)
  have haxes : [(v :: rest).length, 6].length ≤ mostAxes := Nat.le_of_ble_eq_true rfl
  have hregular : (node ((v :: rest).map Load.vector)).hasShape [(v :: rest).length, 6] = true := by
    rw [hasShape, hasShapeList_vectors, List.length_map, Bool.and_true]
    exact beq_self_eq_true _
  rw [shape?, hshape, if_pos ⟨hregular, haxes⟩]

theorem leaves_rows {rows : List (PhaseVector α)} (h : rows ≠ []) : (node (rows.map Load.vector)).leaves ≠ [] := by
  obtain ⟨v, rest, rfl⟩ := List.exists_cons_of_ne_nil h
  simp [leaves, leavesList, PhaseVector.toList]

theorem shape_of_shape? {a : Nested α} {shape : List Nat} (h : a.shape? = some shape) : shape = a.shape := by
  unfold shape? at h
  split at h
  · exact (Option.some.inj h).symm
  · cases h

theorem exists_axis {items : List (Nested α)} {shape : List Nat} (h : (node items).shape? = some shape) :
    ∃ inner, shape = items.length :: inner := by
  rw [shape_of_shape? h]
  cases items <;> exact ⟨_, rfl⟩

/-- Only numbers have no axis. -/
theorem exists_node_of_shape? {a : Nested α} {shape : List Nat} (h : a.shape? = some shape) (hne : shape ≠ []) :
    ∃ items, a = node items := by
  cases a with
  | node items => exact ⟨items, rfl⟩
  | leaf a => exact absurd (shape_of_shape? h) hne

/-- What is read as a vector is one. -/
theorem phaseVector_eq_ok_iff {fault : List Nat → Fault} {a : Nested α} {v : PhaseVector α} :
    a.phaseVector fault = .ok v ↔ a = Load.vector v := by
  constructor
  · intro h
    unfold phaseVector at h
    split at h
    · cases h
    · split at h
      · rename_i hrow
        obtain rfl := Except.ok.inj h
        exact (row?_eq_some_iff a _).mp hrow
      · cases h
  · rintro rfl
    have hrow : (Load.vector v).toList?.bind PhaseVector.ofList? = some v := (row?_eq_some_iff _ v).mpr rfl
    rw [phaseVector, shape?_vector]
    dsimp only
    rw [hrow]

end Nested

namespace Load

variable {α : Type} [Scalar α] {momentum charge : α} {a : Nested α}

theorem ofArray_of_lists (h : Scalar.le momentum 0 = false) {rows : List (PhaseVector α)} (hlists : a.Lists rows) :
    ofArray momentum charge a = .ok (.table ⟨momentum, charge, rows⟩) := by
  cases hlists with
  | nothing hshape hempty =>
    obtain ⟨inner, rfl⟩ := Nested.exists_axis hshape
    simp [ofArray, h, hshape, hempty]
    rfl
  | vector v =>
    have hrow := (Nested.row?_eq_some_iff _ v).mpr rfl
    simp [ofArray, h, hrow, PhaseVector.toList]
    rfl
  | rows hrows =>
    have hread := (Nested.mapM_eq_some_iff Nested.row?_eq_some_iff).mpr (rfl : rows.map vector = _)
    simp [ofArray, h, Nested.shape?_rows hrows, Nested.leaves_rows hrows, Nested.items, hread]
    rfl

theorem ofArray_of_deep (h : Scalar.le momentum 0 = false) (hdeep : a.IsDeep) :
    ofArray momentum charge a = .ok (.stack ⟨momentum, charge, a.items⟩) := by
  obtain ⟨hleaves, n, k, inner, hshape⟩ := hdeep
  simp [ofArray, h, hshape, hleaves]
  rfl

section

variable {l : Load α} (h : ofArray momentum charge a = .ok l)

include h

theorem momentum_of_ofArray : Scalar.le momentum 0 = false := by
  cases hmomentum : Scalar.le momentum 0 with
  | true =>
    rw [ofArray, hmomentum] at h
    cases h
  | false => rfl

theorem exists_shape_of_ofArray : ∃ n inner, a.shape? = some (n :: inner) := by
  have hmomentum := momentum_of_ofArray h
  cases hshape : a.shape? with
  | none =>
    simp only [ofArray, hmomentum, hshape] at h
    cases h
  | some shape =>
    cases shape with
    | nil =>
      simp only [ofArray, hmomentum, hshape] at h
      cases h
    | cons n inner => exact ⟨n, inner, rfl⟩

theorem table_of_ofArray_of_empty (hempty : a.leaves = []) : l = .table ⟨momentum, charge, []⟩ := by
  obtain ⟨n, inner, hshape⟩ := exists_shape_of_ofArray h
  simp only [ofArray, momentum_of_ofArray h, hshape, hempty, List.isEmpty_nil, if_true] at h
  exact (Except.ok.inj h).symm

/-- Along a single axis there is one vector. -/
theorem vector_of_ofArray (hleaves : a.leaves ≠ []) {n : Nat} (hshape : a.shape? = some [n]) :
    ∃ v, a = vector v ∧ l = .table ⟨momentum, charge, [v]⟩ := by
  simp only [ofArray, momentum_of_ofArray h, hshape, List.isEmpty_iff, hleaves, if_false] at h
  cases hrow : a.row? with
  | none =>
    rw [hrow] at h
    cases h
  | some v =>
    rw [hrow] at h
    exact ⟨v, (Nested.row?_eq_some_iff a v).mp hrow, (Except.ok.inj h).symm⟩

/-- Along two axes there are vectors. More axes are not looked at. -/
theorem rows_or_deep_of_ofArray (hleaves : a.leaves ≠ []) {n k : Nat} {inner : List Nat}
    (hshape : a.shape? = some (n :: k :: inner)) :
    (∃ rows, a.items = rows.map vector ∧ l = .table ⟨momentum, charge, rows⟩) ∨
      a.IsDeep ∧ l = .stack ⟨momentum, charge, a.items⟩ := by
  simp only [ofArray, momentum_of_ofArray h, hshape, List.isEmpty_iff, hleaves, Bool.false_eq_true, if_false] at h
  split at h
  · rename_i heq
    cases heq
  · rename_i heq
    obtain ⟨rfl, rfl⟩ := List.cons.inj (List.cons.inj heq).2
    by_cases hflat : inner = []
    · simp only [hflat, if_true] at h
      cases hrows : a.items.mapM Nested.row? with
      | none =>
        rw [hrows] at h
        cases h
      | some rows =>
        rw [hrows] at h
        exact .inl ⟨rows, (Nested.mapM_eq_some_iff Nested.row?_eq_some_iff).mp hrows, (Except.ok.inj h).symm⟩
    · obtain ⟨m, rest, rfl⟩ := List.exists_cons_of_ne_nil hflat
      exact .inr ⟨⟨hleaves, n, m, rest, hshape⟩, (Except.ok.inj h).symm⟩
  · cases h

end

theorem lists_or_deep_of_ofArray {l : Load α} (h : ofArray momentum charge a = .ok l) :
    (∃ rows, a.Lists rows ∧ l = .table ⟨momentum, charge, rows⟩) ∨
      a.IsDeep ∧ l = .stack ⟨momentum, charge, a.items⟩ := by
  obtain ⟨n, inner, hshape⟩ := exists_shape_of_ofArray h
  obtain ⟨items, rfl⟩ := Nested.exists_node_of_shape? hshape (List.cons_ne_nil n inner)
  by_cases hempty : (Nested.node items).leaves = []
  · exact .inl ⟨[], .nothing hshape hempty, table_of_ofArray_of_empty h hempty⟩
  cases inner with
  | nil =>
    obtain ⟨v, hv, rfl⟩ := vector_of_ofArray h hempty hshape
    rw [hv]
    exact .inl ⟨[v], .vector v, rfl⟩
  | cons k inner =>
    rcases rows_or_deep_of_ofArray h hempty hshape with ⟨rows, hrows, rfl⟩ | hdeep
    · obtain rfl : items = rows.map vector := hrows
      refine .inl ⟨rows, .rows ?_, rfl⟩
      rintro rfl
      exact hempty rfl
    · exact .inr hdeep

/-- An array that is no list of particles is taken only if it is deep. -/
theorem ofArray_eq_ok_iff {l : Load α} :
    ofArray momentum charge a = .ok l ↔ Scalar.le momentum 0 = false ∧
      ((∃ rows, a.Lists rows ∧ l = .table ⟨momentum, charge, rows⟩) ∨
        a.IsDeep ∧ l = .stack ⟨momentum, charge, a.items⟩) := by
  refine ⟨fun h => ⟨momentum_of_ofArray h, lists_or_deep_of_ofArray h⟩, ?_⟩
  rintro ⟨hmomentum, ⟨rows, hlists, rfl⟩ | ⟨hdeep, rfl⟩⟩
  · exact ofArray_of_lists hmomentum hlists
  · exact ofArray_of_deep hmomentum hdeep

end Load

end BeamOptics
