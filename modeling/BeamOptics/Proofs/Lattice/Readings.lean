import BeamOptics.Lattice.Range
import BeamOptics.Lattice.Signals

/-!
# Signals but for some readings

Monitors write readings under their tags. What a pass leaves alone are the signals apart from the readings of the
monitors it meets.
-/

namespace BeamOptics

namespace Table

variable {κ ι : Type} [DecidableEq κ]

/-- The table but for the entries under some keys. -/
def without (t : Table κ ι) (keys : List κ) : Table κ ι := ⟨t.entries.filter fun entry => entry.1 ∉ keys⟩

@[simp] theorem without_nil (t : Table κ ι) : t.without [] = t :=
  congrArg Table.mk (List.filter_eq_self.mpr fun entry _ => by simp)

theorem without_insert (t : Table κ ι) {k : κ} {keys : List κ} (h : k ∈ keys) (a : ι) :
    (t.insert k a).without keys = t.without keys := by
  obtain ⟨entries⟩ := t
  unfold insert without
  congr 1
  induction entries with
  | nil => simp [put, h]
  | cons entry rest ih =>
    rw [put]
    split
    · next hk => simp [hk, h]
    · rw [List.filter_cons, List.filter_cons, ih]

theorem get?_without (t : Table κ ι) (keys : List κ) (k : κ) :
    (t.without keys).get? k = if k ∈ keys then none else t.get? k := by
  obtain ⟨entries⟩ := t
  unfold get? without
  induction entries with
  | nil => simp [lookup]
  | cons entry rest ih =>
    by_cases hmem : entry.1 ∈ keys <;> by_cases hk : entry.1 = k <;> simp_all [lookup]

theorem get?_of_without {t t' : Table κ ι} {keys : List κ} (h : t'.without keys = t.without keys) {k : κ}
    (hk : k ∉ keys) : t'.get? k = t.get? k := by
  have hget := congrArg (fun table => table.get? k) h
  simpa only [get?_without, if_neg hk] using hget

end Table

namespace Element

variable {α : Type}

def isMonitor (e : Element α) : Bool :=
  match e.optics with
  | .monitor .. => true
  | _ => false

/-- Tags of the monitors in a line. -/
def monitorTags (elements : List (Element α)) : List Nat := (elements.filter isMonitor).map Element.tag

theorem tag_mem_monitorTags {elements : List (Element α)} {e : Element α} (h : e ∈ elements)
    (hmonitor : e.isMonitor = true) : e.tag ∈ monitorTags elements :=
  List.mem_map_of_mem (List.mem_filter.mpr ⟨h, hmonitor⟩)

end Element

def Range.monitorTags {α : Type} (r : Range α) : List Nat := Element.monitorTags r.elements

namespace Signals

variable {α : Type}

/-- The signals but for the readings under some tags. -/
def apart (s : Signals α) (tags : List Nat) : Signals α := { s with readings := s.readings.without tags }

@[simp] theorem apart_nil (s : Signals α) : s.apart [] = s := by
  rw [apart, Table.without_nil]

theorem strengths_of_apart {s s' : Signals α} {tags : List Nat} (h : s'.apart tags = s.apart tags) :
    s'.strengths = s.strengths :=
  (congrArg strengths h :)

theorem reading_of_apart {s s' : Signals α} {tags : List Nat} (h : s'.apart tags = s.apart tags) {tag : Nat}
    (htag : tag ∉ tags) : s'.readings.get? tag = s.readings.get? tag :=
  Table.get?_of_without (congrArg readings h) htag

theorem reading_congr [Scalar α] {s s' : Signals α} {tags : List Nat} (h : s'.apart tags = s.apart tags)
    {e : Element α} (htag : e.tag ∉ tags) : s'.reading e = s.reading e := by
  rw [reading, reading_of_apart h htag, reading]

theorem apart_observe [Scalar α] (s : Signals α) {e : Element α} {tags : List Nat}
    (h : e.isMonitor = true → e.tag ∈ tags) (b : Bunch α) : (s.observe e b).apart tags = s.apart tags := by
  unfold observe
  split
  · next hoptics =>
    have htag : e.tag ∈ tags := h (by rw [Element.isMonitor, hoptics])
    split
    · rfl
    · exact congrArg (Signals.mk s.strengths) (Table.without_insert _ htag _)
  · rfl

theorem observe_of_isMonitor_false [Scalar α] (s : Signals α) {e : Element α} (h : e.isMonitor = false) (b : Bunch α) :
    s.observe e b = s := by
  unfold observe
  split
  · next hoptics =>
    rw [Element.isMonitor, hoptics] at h
    cases h
  · rfl

end Signals

end BeamOptics
