import BeamOptics.Proofs.Action
import BeamOptics.Lattice.Model
import Mathlib.Data.List.Nodup

/-!
# Lines without repeated elements

A line refuses a name that it has already, when it is built as well as later on. As the tag of an element stands for
one element, with one name, no element is in a line twice, and its index is its only one.
-/

namespace BeamOptics

namespace Model

variable {α : Type}

theorem nodup_names_of_addElement {m m' : Model α} {e : Element α} (h : m.addElement e = .ok m')
    (hnames : (m.elements.map Element.name).Nodup) : (m'.elements.map Element.name).Nodup := by
  rw [addElement] at h
  split at h
  · cases h
  · rename_i hnew
    obtain rfl := Except.ok.inj h
    have hfresh : e.name ∉ m.elements.map Element.name := by
      intro hmem
      obtain ⟨f, hf, hname⟩ := List.mem_map.mp hmem
      exact hnew (List.any_eq_true.mpr ⟨f, hf, beq_iff_eq.mpr hname⟩)
    rw [List.map_append, List.map_singleton, ← List.concat_eq_append]
    exact hnames.concat hfresh

theorem nodup_names_of_addMembers {members : List (Option (Element α))} {m m' : Model α}
    (h : m.addMembers members = .ok m') (hnames : (m.elements.map Element.name).Nodup) :
    (m'.elements.map Element.name).Nodup := by
  induction members generalizing m with
  | nil =>
    obtain rfl := Except.ok.inj h
    exact hnames
  | cons member rest ih =>
    cases member with
    | none => cases h
    | some e =>
      obtain ⟨grown, hgrown, hrest⟩ := bind_eq_ok_iff.mp h
      exact ih hrest (nodup_names_of_addElement hgrown hnames)

theorem elements_of_addSources {sources : List Source} {m m' : Model α} (h : m.addSources sources = .ok m') :
    m'.elements = m.elements := by
  induction sources generalizing m with
  | nil =>
    obtain rfl := Except.ok.inj h
    rfl
  | cons s rest ih =>
    obtain ⟨driven, hdriven, hrest⟩ := bind_eq_ok_iff.mp h
    obtain ⟨-, -, hsource⟩ := bind_eq_ok_iff.mp hdriven
    obtain rfl := Except.ok.inj hsource
    have hsame := ih hrest
    exact hsame

theorem nodup_names_of_build {name : String} {members : List (Option (Element α))} {sources : List Source}
    {m : Model α} (h : build name members sources = .ok m) : (m.elements.map Element.name).Nodup := by
  unfold build at h
  split at h
  · cases h
  · obtain ⟨line, hline, hsources⟩ := bind_eq_ok_iff.mp h
    rw [elements_of_addSources hsources]
    exact nodup_names_of_addMembers hline List.nodup_nil

/-- A line with distinct names repeats no element. -/
theorem nodup_tags {m : Model α} (hnames : (m.elements.map Element.name).Nodup)
    (htags : ∀ e ∈ m.elements, ∀ f ∈ m.elements, e.tag = f.tag → e.name = f.name) :
    (m.elements.map Element.tag).Nodup := by
  refine List.Nodup.map_on ?_ hnames.of_map
  intro e he f hf htag
  exact List.inj_on_of_nodup_map hnames he hf (htags e he f hf htag)

/-- A line without repeated elements has an element at one index only. -/
theorem index_inj {m : Model α} (hdistinct : (m.elements.map Element.tag).Nodup) {i j : Nat} {e f : Element α}
    (he : m.elements[i]? = some e) (hf : m.elements[j]? = some f) (htag : e.tag = f.tag) : i = j := by
  have hi : i < (m.elements.map Element.tag).length := by
    rw [List.length_map]
    exact (List.getElem?_eq_some_iff.mp he).1
  refine (List.getElem?_inj hi hdistinct).mp ?_
  rw [List.getElem?_map, List.getElem?_map, he, hf, Option.map_some, Option.map_some, htag]

end Model

end BeamOptics
