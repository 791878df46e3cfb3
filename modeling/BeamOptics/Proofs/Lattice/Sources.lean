import BeamOptics.Proofs.Lattice.Growth
import Mathlib.Data.List.Induction

/-!
# Power sources in the order of the line

Sources are listed by the first place that they drive, and those that start at one place in the order in which the line
took them. A new source goes behind all that do not start after it.
-/

namespace BeamOptics

namespace Source

/-- The sources that start at one place. -/
def startingAt (k : Int) (sources : List Source) : List Source := sources.filter fun s => s.firstIndex = k

/-- No source comes before one that starts earlier. -/
def Ascending (sources : List Source) : Prop := sources.Pairwise fun s t => s.firstIndex ≤ t.firstIndex

theorem startingAt_append (k : Int) (front back : List Source) :
    startingAt k (front ++ back) = startingAt k front ++ startingAt k back :=
  List.filter_append front back

theorem startingAt_cons_self (s : Source) (rest : List Source) :
    startingAt s.firstIndex (s :: rest) = s :: startingAt s.firstIndex rest :=
  List.filter_cons_of_pos (decide_eq_true rfl)

theorem startingAt_cons_of_ne {k : Int} {s : Source} (h : s.firstIndex ≠ k) (rest : List Source) :
    startingAt k (s :: rest) = startingAt k rest :=
  List.filter_cons_of_neg (by simpa using h)

theorem startingAt_eq_nil {k : Int} {sources : List Source} (h : ∀ s ∈ sources, s.firstIndex ≠ k) :
    startingAt k sources = [] := by
  apply List.filter_eq_nil_iff.mpr
  intro s hs hk
  exact h s hs (of_decide_eq_true hk)

/-! ### Putting a source in its place -/

/-- A source divides a list that ascends: what starts no later goes before it, and what starts later behind. -/
theorem exists_place {sorted : List Source} (hsorted : Ascending sorted) (s : Source) :
    ∃ before behind, sorted = before ++ behind ∧ place s sorted = before ++ s :: behind ∧
      (∀ t ∈ before, t.firstIndex ≤ s.firstIndex) ∧ ∀ t ∈ behind, s.firstIndex < t.firstIndex := by
  induction sorted with
  | nil => exact ⟨[], [], rfl, rfl, nofun, nofun⟩
  | cons t rest ih =>
    obtain ⟨hfirst, hrest⟩ := List.pairwise_cons.mp hsorted
    by_cases hlater : s.firstIndex < t.firstIndex
    · refine ⟨[], t :: rest, rfl, if_pos hlater, nofun, ?_⟩
      intro u hu
      rcases List.mem_cons.mp hu with rfl | hu
      · exact hlater
      · have hbehind := hfirst u hu
        omega
    · obtain ⟨before, behind, rfl, hplace, hbefore, hbehind⟩ := ih hrest
      refine ⟨t :: before, behind, rfl, ?_, ?_, hbehind⟩
      · rw [place, if_neg hlater, hplace]
        rfl
      · intro u hu
        rcases List.mem_cons.mp hu with rfl | hu
        · omega
        · exact hbefore u hu

theorem ascending_place {sorted : List Source} (hsorted : Ascending sorted) (s : Source) :
    Ascending (place s sorted) := by
  obtain ⟨before, behind, rfl, hplace, hbefore, hbehind⟩ := exists_place hsorted s
  obtain ⟨hfront, hback, hacross⟩ := List.pairwise_append.mp hsorted
  rw [hplace]
  apply List.pairwise_append.mpr
  refine ⟨hfront, List.pairwise_cons.mpr ⟨fun t ht => ?_, hback⟩, ?_⟩
  · exact Int.le_of_lt (hbehind t ht)
  · intro t ht u hu
    rcases List.mem_cons.mp hu with rfl | hu
    · exact hbefore t ht
    · exact hacross t ht u hu

/-- Among the sources that start where it does, the new one comes last. -/
theorem startingAt_place {sorted : List Source} (hsorted : Ascending sorted) (s : Source) (k : Int) :
    startingAt k (place s sorted) = startingAt k (sorted ++ [s]) := by
  obtain ⟨before, behind, rfl, hplace, -, hbehind⟩ := exists_place hsorted s
  rw [hplace, List.append_assoc, startingAt_append, startingAt_append, startingAt_append]
  by_cases hk : s.firstIndex = k
  · subst hk
    have hnone : startingAt s.firstIndex behind = [] := startingAt_eq_nil fun t ht => by
      have hlater := hbehind t ht
      omega
    rw [startingAt_cons_self, hnone]
    simp [startingAt]
  · rw [startingAt_cons_of_ne hk, startingAt_cons_of_ne hk]
    simp [startingAt]

/-! ### Sorting -/

theorem inLineOrder_perm (sources : List Source) : (inLineOrder sources).Perm sources := by
  induction sources using List.reverseRecOn with
  | nil => exact .refl _
  | append_singleton taken s ih =>
    rw [inLineOrder_append_singleton]
    calc List.Perm (place s (inLineOrder taken)) (s :: inLineOrder taken) := place_perm s _
      List.Perm _ (s :: taken) := ih.cons s
      List.Perm _ (taken ++ [s]) := (List.perm_append_singleton s taken).symm

theorem ascending_inLineOrder (sources : List Source) : Ascending (inLineOrder sources) := by
  induction sources using List.reverseRecOn with
  | nil => exact List.Pairwise.nil
  | append_singleton taken s ih =>
    rw [inLineOrder_append_singleton]
    exact ascending_place ih s

/-- Sources that start at one place keep their order. -/
theorem startingAt_inLineOrder (k : Int) (sources : List Source) :
    startingAt k (inLineOrder sources) = startingAt k sources := by
  induction sources using List.reverseRecOn with
  | nil => rfl
  | append_singleton taken s ih =>
    rw [inLineOrder_append_singleton, startingAt_place (ascending_inLineOrder taken), startingAt_append, ih,
      startingAt_append]

end Source

namespace Model

variable {α : Type}

/-- All that a line consists of: its elements, and behind them its sources. -/
def components (m : Model α) : List (Element α ⊕ Source) := m.elements.map .inl ++ m.sources.map .inr

theorem filterMap_components (m : Model α) : m.components.filterMap Sum.getRight? = m.sources := by
  simp [components, List.filterMap_map, Function.comp_def]

/-- The sources that a line has taken, when it was built and one by one since. -/
inductive Collects : List Source → Model α → Prop
  | built {name : String} {members : List (Option (Element α))} {sources : List Source} {m : Model α}
    (h : build name members sources = .ok m) : Collects sources m
  | element {sources : List Source} {m m' : Model α} {e : Element α} (h : Collects sources m)
    (hadd : m.addElement e = .ok m') : Collects sources m'
  | source {sources : List Source} {m m' : Model α} {s : Source} (h : Collects sources m)
    (hadd : m.addSource s = .ok m') : Collects (sources ++ [s]) m'

theorem Collects.sources_eq {sources : List Source} {m : Model α} (h : Collects sources m) : m.sources = sources := by
  induction h with
  | built h => exact (build_eq_ok_iff.mp h).2.2.2.2
  | element _ hadd ih =>
    obtain ⟨-, rfl⟩ := addElement_eq_ok_iff.mp hadd
    exact ih
  | source _ hadd ih =>
    obtain ⟨-, rfl⟩ := addSource_eq_ok_iff.mp hadd
    rw [← ih]

/-- However a line came by its sources, its klystrons are all of them, ascending by the first place that they drive, and
those that start at one place in the order in which the line took them. One source more goes right behind those that do
not start after it; one element more changes nothing. -/
theorem klystrons_in_line_order {sources : List Source} {m : Model α} (h : Collects sources m) :
    m.klystrons = Source.inLineOrder (m.components.filterMap Sum.getRight?) ∧
    m.klystrons.Perm sources ∧
    m.klystrons.Pairwise (fun s t => s.firstIndex ≤ t.firstIndex) ∧
    (∀ k : Int, m.klystrons.filter (fun s => s.firstIndex = k) = sources.filter fun s => s.firstIndex = k) ∧
    (∀ s m', m.addSource s = .ok m' → ∃ before behind, m.klystrons = before ++ behind ∧
      m'.klystrons = before ++ s :: behind ∧
      (∀ t ∈ before, t.firstIndex ≤ s.firstIndex) ∧ ∀ t ∈ behind, s.firstIndex < t.firstIndex) ∧
    ∀ e m', m.addElement e = .ok m' → m'.klystrons = m.klystrons := by
  obtain rfl := h.sources_eq
  refine ⟨?_, ?_, ?_, ?_, ?_, ?_⟩
  · rw [filterMap_components]
    rfl
  · exact Source.inLineOrder_perm m.sources
  · exact Source.ascending_inLineOrder m.sources
  · exact fun k => Source.startingAt_inLineOrder k m.sources
  · intro s m' hadd
    obtain ⟨-, rfl⟩ := addSource_eq_ok_iff.mp hadd
    obtain ⟨before, behind, hsplit, hplace, hsides⟩ :=
      Source.exists_place (Source.ascending_inLineOrder m.sources) s
    refine ⟨before, behind, hsplit, ?_, hsides⟩
    rw [← hplace]
    exact Source.inLineOrder_append_singleton m.sources s
  · intro e m' hadd
    obtain ⟨-, rfl⟩ := addElement_eq_ok_iff.mp hadd
    rfl

end Model

namespace DrivenLine

def marker (tag : Nat) (name : String) : Element Int := ⟨tag, name, "Marker", 0, .marker⟩

/-- Two sources start at the second element, and the one that was given first starts there too. -/
def line : Model Int :=
  ⟨"line", [marker 0 "M1", marker 1 "M2", marker 2 "M3"], [⟨"K1", [1, 2]⟩, ⟨"K2", [0]⟩, ⟨"K3", [1]⟩]⟩

theorem collects_line : Model.Collects ([⟨"K1", [1, 2]⟩, ⟨"K2", [0]⟩] ++ [⟨"K3", [1]⟩]) line := by
  have hbuilt : Model.build "line" (line.elements.map some) [⟨"K1", [1, 2]⟩, ⟨"K2", [0]⟩] =
      .ok { line with sources := [⟨"K1", [1, 2]⟩, ⟨"K2", [0]⟩] } := rfl
  exact .source (.built hbuilt) rfl

/-- The source that is added last starts at the second element too, and goes behind the two that do. -/
theorem klystrons_of_driven_line :
    line.klystrons.Perm line.sources ∧
    line.klystrons.filter (fun s => s.firstIndex = 1) = [⟨"K1", [1, 2]⟩, ⟨"K3", [1]⟩] ∧
    (∃ before behind, line.klystrons = before ++ behind ∧
      Model.klystrons { line with sources := line.sources ++ [⟨"K4", [1]⟩] } = before ++ ⟨"K4", [1]⟩ :: behind ∧
      (∀ t ∈ before, t.firstIndex ≤ 1) ∧ ∀ t ∈ behind, 1 < t.firstIndex) ∧
    Model.klystrons { line with elements := line.elements ++ [marker 3 "M4"] } = line.klystrons := by
  obtain ⟨-, hall, -, hstable, hsource, helement⟩ := Model.klystrons_in_line_order collects_line
  refine ⟨hall, hstable 1, ?_, helement (marker 3 "M4") _ rfl⟩
  exact hsource ⟨"K4", [1]⟩ _ rfl

end DrivenLine

end BeamOptics
