import BeamOptics.Document.Reading

/-!
# Mappings of documents

The keys of a mapping are no lists and no mappings, and no two of them are equal. So a text stands for at most one
value, wherever in the mapping it is. Every document that can be read has such mappings only, also where one takes over
the entries of others.
-/

namespace BeamOptics

/-- Entries with keys of their own, each of which could be the key of a mapping. -/
structure IsDictionary (entries : List (Datum × Datum)) : Prop where
  keys : ∀ entry ∈ entries, Document.isKey entry.1 = true
  distinct : entries.Pairwise fun a b => Datum.equal a.1 b.1 = false

/-- Entries in which a text stands for one value, wherever it is. -/
def Unambiguous (entries : List (Datum × Datum)) : Prop :=
  ∀ ⦃name : String⦄ ⦃d d' : Datum⦄, (.text name, d) ∈ entries → (.text name, d') ∈ entries → d = d'

theorem Unambiguous.perm {entries entries' : List (Datum × Datum)} (h : Unambiguous entries)
    (hperm : entries'.Perm entries) : Unambiguous entries' :=
  fun _ _ _ hd hd' => h (hperm.mem_iff.mp hd) (hperm.mem_iff.mp hd')

namespace Datum

theorem equal_text_iff {d : Datum} {name : String} : equal d (.text name) = true ↔ d = .text name := by
  cases d with
  | text s => rw [equal, beq_iff_eq, text.injEq]
  | null => exact ⟨nofun, nofun⟩
  | bool b => exact ⟨nofun, nofun⟩
  | int i => exact ⟨nofun, nofun⟩
  | float x => exact ⟨nofun, nofun⟩
  | list items => exact ⟨nofun, nofun⟩
  | mapping entries => exact ⟨nofun, nofun⟩
  | other typeName => exact ⟨nofun, nofun⟩

end Datum

namespace IsDictionary

variable {entries : List (Datum × Datum)}

theorem nil : IsDictionary [] := ⟨nofun, List.Pairwise.nil⟩

theorem of_cons {entry : Datum × Datum} (h : IsDictionary (entry :: entries)) : IsDictionary entries :=
  ⟨fun other hother => h.keys other (List.mem_cons_of_mem _ hother), h.distinct.of_cons⟩

theorem unambiguous (h : IsDictionary entries) : Unambiguous entries := by
  intro name d d' hd hd'
  have hequal : Datum.equal (.text name) (.text name) = true := Datum.equal_text_iff.mpr rfl
  induction entries with
  | nil => cases hd
  | cons entry rest ih =>
    have hfirst : ∀ other ∈ rest, Datum.equal entry.1 other.1 = false := (List.pairwise_cons.mp h.distinct).1
    rcases List.mem_cons.mp hd with rfl | hrest
    · rcases List.mem_cons.mp hd' with heq | hrest'
      · exact (Prod.mk.inj heq).2.symm
      · exact absurd hequal (Bool.eq_false_iff.mp (hfirst (.text name, d') hrest'))
    · rcases List.mem_cons.mp hd' with rfl | hrest'
      · exact absurd hequal (Bool.eq_false_iff.mp (hfirst (.text name, d) hrest))
      · exact ih h.of_cons hrest hrest'

/-- An entry that is put in leaves a dictionary. -/
theorem insert (h : IsDictionary entries) {key : Datum} (hkey : Document.isKey key = true) (value : Datum) :
    IsDictionary (Document.insert entries key value) := by
  unfold Document.insert
  split
  · have hfst : ∀ entry : Datum × Datum,
        (if Datum.equal entry.1 key then (entry.1, value) else entry).1 = entry.1 := by
      intro entry
      split <;> rfl
    refine ⟨fun entry hentry => ?_, List.pairwise_map.mpr (h.distinct.imp fun {a b} hab => ?_)⟩
    · obtain ⟨before, hbefore, rfl⟩ := List.mem_map.mp hentry
      rw [hfst]
      exact h.keys before hbefore
    · rwa [hfst, hfst]
  · rename_i hnew
    have hapart : ∀ entry ∈ entries, Datum.equal entry.1 key = false := by
      simpa using hnew
    refine ⟨fun entry hentry => ?_, List.pairwise_append.mpr ⟨h.distinct, List.pairwise_singleton _ _, ?_⟩⟩
    · rcases List.mem_append.mp hentry with hentry | hentry
      · exact h.keys entry hentry
      · obtain rfl := List.mem_singleton.mp hentry
        exact hkey
    · intro entry hentry last hlast
      obtain rfl := List.mem_singleton.mp hlast
      exact hapart entry hentry

theorem insertAll (h : IsDictionary entries) {more : List (Datum × Datum)}
    (hmore : ∀ entry ∈ more, Document.isKey entry.1 = true) : IsDictionary (Document.insertAll entries more) := by
  unfold Document.insertAll
  induction more generalizing entries with
  | nil => exact h
  | cons entry rest ih =>
    obtain ⟨hentry, hrest⟩ := List.forall_mem_cons.mp hmore
    exact ih (h.insert hentry entry.2) hrest

end IsDictionary

namespace Datum

/-- If the value is a mapping, it is a dictionary. -/
def HasDictionary (d : Datum) : Prop := ∀ entries, d = .mapping entries → IsDictionary entries

/-- Also the items of a list are dictionaries if they are mappings. -/
structure HasDictionaries (d : Datum) : Prop where
  whole : d.HasDictionary
  items : ∀ items, d = .list items → ∀ item ∈ items, item.HasDictionary

theorem HasDictionaries.mapping {entries : List (Datum × Datum)} (h : IsDictionary entries) :
    (Datum.mapping entries).HasDictionaries := by
  refine ⟨fun entries' heq => ?_, nofun⟩
  obtain rfl := Datum.mapping.inj heq
  exact h

theorem HasDictionaries.list {items : List Datum} (h : ∀ item ∈ items, item.HasDictionary) :
    (Datum.list items).HasDictionaries := by
  refine ⟨nofun, fun items' heq => ?_⟩
  obtain rfl := Datum.list.inj heq
  exact h

end Datum

namespace Document

/-- Entries to take over are those of a dictionary. -/
theorem isDictionary_of_merged {d : Datum} {entries : List (Datum × Datum)} (hd : d.HasDictionaries)
    (h : merged d = some entries) : IsDictionary entries := by
  cases d with
  | mapping entries' =>
    obtain rfl := Option.some.inj h
    exact hd.whole _ rfl
  | list items =>
    have hitems := hd.items items rfl
    clear hd
    -- Lists are taken over from their end, so that earlier items come last and win.
    change items.foldrM _ [] = _ at h
    induction items generalizing entries with
    | nil =>
      obtain rfl := Option.some.inj h
      exact .nil
    | cons item rest ih =>
      obtain ⟨hitem, hrest⟩ := List.forall_mem_cons.mp hitems
      rw [List.foldrM_cons] at h
      obtain ⟨all, hall, h⟩ := Option.bind_eq_some_iff.mp h
      cases item with
      | mapping entries' =>
        obtain rfl := Option.some.inj h
        exact (ih hrest hall).insertAll (hitem entries' rfl).keys
      | _ => cases h
  | _ => cases h

theorem isKey_of_tagged? {tag text : String} {d : Datum} (h : tagged? tag text = some d) : isKey d = true := by
  unfold tagged? at h
  split at h
  · obtain rfl := Option.some.inj h
    rfl
  · obtain ⟨i, -, rfl⟩ := Option.map_eq_some_iff.mp h
    rfl
  · obtain ⟨x, -, rfl⟩ := Option.map_eq_some_iff.mp h
    rfl
  · obtain rfl := Option.some.inj h
    rfl
  · split at h
    · obtain rfl := Option.some.inj h
      rfl
    · cases h
  · cases h

theorem isKey_read (text : String) : isKey (PlainScalar.read text) = true := by
  unfold PlainScalar.read
  repeat' split
  all_goals rfl

theorem isKey_of_scalarDatum? {tag : Option String} {plain : Bool} {text : String} {d : Datum}
    (h : scalarDatum? tag plain text = some d) : isKey d = true := by
  unfold scalarDatum? at h
  split at h
  · exact isKey_of_tagged? h
  · split at h
    · obtain rfl := Option.some.inj h
      rfl
    · split at h
      · cases h
      · obtain rfl := Option.some.inj h
        exact isKey_read text

theorem hasDictionaries_of_isKey {d : Datum} (h : isKey d = true) : d.HasDictionaries := by
  refine ⟨fun entries heq => ?_, fun items heq => ?_⟩ <;>
  · rw [heq] at h
    cases h

theorem isKey_of_ownEntries? {nodes : List (Node × Node)} {entries : List (Datum × Datum)}
    (h : ownEntries? nodes = some entries) : ∀ entry ∈ entries, isKey entry.1 = true := by
  induction nodes generalizing entries with
  | nil =>
    obtain rfl := Option.some.inj h
    exact nofun
  | cons node rest ih =>
    obtain ⟨key, value⟩ := node
    rw [ownEntries?] at h
    split at h
    · exact ih h
    · split at h
      · rename_i k v more hkey hvalue hmore
        split at h
        · rename_i hk
          obtain rfl := Option.some.inj h
          exact List.forall_mem_cons.mpr ⟨hk, ih hmore⟩
        · cases h
      · cases h

mutual

theorem hasDictionaries_of_datum? : ∀ {node : Node} {d : Datum}, datum? node = some d → d.HasDictionaries
  | .scalar tag plain text, d, h => by
    rw [datum?] at h
    exact hasDictionaries_of_isKey (isKey_of_scalarDatum? h)
  | .sequence tag items, d, h => by
    rw [datum?] at h
    split at h
    · obtain ⟨ds, hds, rfl⟩ := Option.map_eq_some_iff.mp h
      exact .list (hasDictionary_of_datumList? hds)
    · cases h
  | .mapping tag nodes, d, h => by
    rw [datum?] at h
    split at h
    · split at h
      · rename_i before own hbefore hown
        obtain rfl := Option.some.inj h
        exact .mapping ((isDictionary_of_takenOver? hbefore).insertAll (isKey_of_ownEntries? hown))
      · cases h
    · cases h

theorem hasDictionary_of_datumList? : ∀ {nodes : List Node} {ds : List Datum}, datumList? nodes = some ds →
    ∀ d ∈ ds, d.HasDictionary
  | [], ds, h => by
    rw [datumList?] at h
    obtain rfl := Option.some.inj h
    exact nofun
  | node :: rest, ds, h => by
    rw [datumList?] at h
    split at h
    · rename_i first later hfirst hlater
      obtain rfl := Option.some.inj h
      exact List.forall_mem_cons.mpr ⟨(hasDictionaries_of_datum? hfirst).whole, hasDictionary_of_datumList? hlater⟩
    · cases h

theorem isDictionary_of_takenOver? : ∀ {nodes : List (Node × Node)} {entries : List (Datum × Datum)},
    takenOver? nodes = some entries → IsDictionary entries
  | [], entries, h => by
    rw [takenOver?] at h
    obtain rfl := Option.some.inj h
    exact .nil
  | (key, value) :: rest, entries, h => by
    rw [takenOver?] at h
    split at h
    · split at h
      · rename_i first later hfirst hlater
        obtain rfl := Option.some.inj h
        obtain ⟨d, hd, hmerged⟩ := Option.bind_eq_some_iff.mp hfirst
        exact (isDictionary_of_merged (hasDictionaries_of_datum? hd) hmerged).insertAll
          (isDictionary_of_takenOver? hlater).keys
      · cases h
    · exact isDictionary_of_takenOver? h

end

/-- A document that is a mapping has keys of its own. -/
theorem hasDictionary_of_read? {text : String} {d : Datum} (h : read? text = some d) : d.HasDictionary := by
  unfold read? at h
  dsimp only at h
  split at h
  · cases h
  · obtain ⟨tokens, -, h⟩ := Option.bind_eq_some_iff.mp h
    obtain ⟨node?, -, h⟩ := Option.bind_eq_some_iff.mp h
    cases node? with
    | some node => exact (hasDictionaries_of_datum? h).whole
    | none =>
      obtain rfl := Option.some.inj h
      exact nofun

end Document

end BeamOptics
