/-!
# Tables

Entries under keys, in the order in which the keys first came. A key that comes again keeps its place.
-/

namespace BeamOptics

structure Table (κ α : Type) where
  entries : List (κ × α) := []

namespace Table

variable {κ α : Type} [DecidableEq κ]

def empty : Table κ α := { }

def lookup (k : κ) : List (κ × α) → Option α
  | [] => none
  | (k', a) :: rest => if k' = k then some a else lookup k rest

def put (k : κ) (a : α) : List (κ × α) → List (κ × α)
  | [] => [(k, a)]
  | (k', a') :: rest => if k' = k then (k', a) :: rest else (k', a') :: put k a rest

def get? (t : Table κ α) (k : κ) : Option α := lookup k t.entries

def insert (t : Table κ α) (k : κ) (a : α) : Table κ α := ⟨put k a t.entries⟩

def erase (t : Table κ α) (k : κ) : Table κ α := ⟨t.entries.filter fun entry => entry.1 ≠ k⟩

def keys (t : Table κ α) : List κ := t.entries.map Prod.fst

theorem lookup_put (k j : κ) (a : α) (entries : List (κ × α)) :
    lookup j (put k a entries) = if k = j then some a else lookup j entries := by
  induction entries with
  | nil => simp [put, lookup]
  | cons entry rest ih =>
    obtain ⟨k', a'⟩ := entry
    by_cases h : k' = k
    · subst h
      by_cases hj : k' = j <;> simp [put, lookup, hj]
    · by_cases hj : k' = j
      · subst hj
        simp [put, lookup, h, Ne.symm h]
      · simp [put, lookup, h, hj, ih]

@[simp] theorem get?_empty (k : κ) : (empty : Table κ α).get? k = none := rfl

theorem get?_insert (t : Table κ α) (k j : κ) (a : α) :
    (t.insert k a).get? j = if k = j then some a else t.get? j :=
  lookup_put k j a t.entries

@[simp] theorem get?_insert_self (t : Table κ α) (k : κ) (a : α) : (t.insert k a).get? k = some a := by
  simp [get?_insert]

theorem get?_insert_of_ne (t : Table κ α) {k j : κ} (a : α) (h : k ≠ j) :
    (t.insert k a).get? j = t.get? j := by
  simp [get?_insert, h]

theorem put_put (k : κ) (a a' : α) (entries : List (κ × α)) : put k a' (put k a entries) = put k a' entries := by
  induction entries with
  | nil => simp [put]
  | cons entry rest ih =>
    obtain ⟨k', b⟩ := entry
    by_cases h : k' = k <;> simp [put, h, ih]

theorem put_of_lookup {k : κ} {a : α} {entries : List (κ × α)} (h : lookup k entries = some a) :
    put k a entries = entries := by
  induction entries with
  | nil => cases h
  | cons entry rest ih =>
    obtain ⟨k', b⟩ := entry
    by_cases hk : k' = k
    · rw [lookup, if_pos hk] at h
      simp [put, hk, Option.some.inj h]
    · rw [lookup, if_neg hk] at h
      simp [put, hk, ih h]

theorem insert_insert (t : Table κ α) (k : κ) (a a' : α) : (t.insert k a).insert k a' = t.insert k a' :=
  congrArg Table.mk (put_put k a a' t.entries)

/-- What is there already can be put there again. -/
theorem insert_of_get? {t : Table κ α} {k : κ} {a : α} (h : t.get? k = some a) : t.insert k a = t :=
  congrArg Table.mk (put_of_lookup h)

def keyWhere? (t : Table κ α) (p : α → Bool) : Option κ :=
  (t.entries.find? fun entry => p entry.2).map Prod.fst

def fresh (t : Table Nat α) : Nat := t.entries.foldr (fun entry n => max (entry.1 + 1) n) 0

theorem lt_fresh_of_get? {t : Table Nat α} {k : Nat} {a : α} (h : t.get? k = some a) : k < t.fresh := by
  obtain ⟨entries⟩ := t
  unfold get? at h
  unfold fresh
  induction entries with
  | nil => simp [lookup] at h
  | cons entry rest ih =>
    obtain ⟨k', a'⟩ := entry
    simp only [List.foldr_cons]
    simp only [lookup] at h
    split at h
    · omega
    · have := ih h
      simp only at this
      omega

@[simp] theorem get?_fresh (t : Table Nat α) : t.get? t.fresh = none := by
  cases h : t.get? t.fresh with
  | none => rfl
  | some a => exact absurd (lt_fresh_of_get? h) (Nat.lt_irrefl _)

end Table

end BeamOptics
