import BeamOptics.Proofs.Lattice.Channels
import BeamOptics.Proofs.Machine.Segments
import BeamOptics.Proofs.Pattern.Matching
import BeamOptics.Proofs.Scalar.Digits

/-!
# Channels for steering

Steering pairs the horizontal readings of a segment with the vertical ones, and both with the strengths of the
correctors. All are found by patterns for their ids. What the patterns say about names is said here, and that names with
dots or signals in them cannot mislead them.
-/

namespace BeamOptics

namespace Signal

def suffix (signal : Signal) : String := "." ++ signal.name

/-- No name can make an id end like that of another signal. -/
theorem append_suffix_inj {front back : List Char} {a b : Signal} :
    front ++ a.suffix.toList = back ++ b.suffix.toList ↔ front = back ∧ a = b := by
  constructor
  · intro h
    have hend (signal : Signal) (text : List Char) :
        (text ++ signal.suffix.toList).getLast? = signal.suffix.toList.getLast? := by
      rw [List.getLast?_append]
      cases signal <;> rfl
    have hlast := congrArg List.getLast? h
    rw [hend, hend] at hlast
    obtain rfl : a = b := by
      revert hlast
      cases a <;> cases b <;> decide
    exact ⟨List.append_cancel_right h, rfl⟩
  · rintro ⟨rfl, rfl⟩
    rfl

end Signal

namespace Element

variable {α : Type}

def isCorrector (e : Element α) : Bool :=
  match e.optics with
  | .corrector .. => true
  | _ => false

/-- The name is a title with any text behind it that has no line feed. -/
def Titled (title : String) (e : Element α) : Prop := ∃ rest : String, '\n' ∉ rest.toList ∧ e.name = title ++ rest

theorem titled_iff {title : String} {e : Element α} :
    e.Titled title ↔ title.toList <+: e.name.toList ∧ '\n' ∉ e.name.toList.drop title.toList.length := by
  constructor
  · rintro ⟨rest, hrest, hname⟩
    rw [hname, String.toList_append, List.drop_left]
    exact ⟨List.prefix_append _ _, hrest⟩
  · rintro ⟨⟨rest, hname⟩, hrest⟩
    refine ⟨String.ofList rest, ?_, String.ext ?_⟩
    · rwa [← hname, List.drop_left, ← String.toList_ofList (l := rest)] at hrest
    · rw [String.toList_append, String.toList_ofList, hname]

instance (title : String) : DecidablePred (Titled (α := α) title) := fun _ => decidable_of_iff _ titled_iff.symm

/-- Titles of one length that differ are titles of different elements. -/
theorem not_titled_of_titled {title title' : String} (hlength : title.toList.length = title'.toList.length)
    (hne : title ≠ title') {e : Element α} (h : e.Titled title) : ¬e.Titled title' := by
  intro h'
  obtain ⟨hleading, -⟩ := titled_iff.mp h
  obtain ⟨hleading', -⟩ := titled_iff.mp h'
  have hwithin := List.prefix_of_prefix_length_le hleading hleading' (Nat.le_of_eq hlength)
  exact hne (String.ext (hwithin.eq_of_length hlength))

theorem x_mem_visible_iff {e : Element α} : Signal.x ∈ e.optics.visible ↔ e.isMonitor = true := by
  rw [isMonitor]
  cases e.optics <;> simp [Optics.visible, Optics.readable, Optics.writable]

theorem y_mem_visible_iff {e : Element α} : Signal.y ∈ e.optics.visible ↔ e.isMonitor = true := by
  rw [isMonitor]
  cases e.optics <;> simp [Optics.visible, Optics.readable, Optics.writable]

theorem strength_mem_writable_iff {e : Element α} : Signal.strength ∈ e.optics.writable ↔ e.isCorrector = true := by
  rw [isCorrector]
  cases e.optics <;> simp [Optics.writable]

theorem nodup_visible (e : Element α) : e.optics.visible.Nodup := by
  cases e.optics <;> simp [Optics.visible, Optics.readable, Optics.writable]

theorem nodup_writable (e : Element α) : e.optics.writable.Nodup := by
  cases e.optics <;> simp [Optics.writable]

end Element

/-! ### What the patterns select -/

theorem Accelerator.takes_idsBetween (first last : String) :
    (idsBetween first last).Takes fun text =>
      ∃ middle, '\n' ∉ middle ∧ text = first.toList ++ (middle ++ last.toList) := by
  refine ((Pattern.takes_literal _).seq (Pattern.takes_anyText.seq (Pattern.takes_literal _))).congr fun text => ?_
  constructor
  · rintro ⟨_, _, rfl, ⟨middle, _, hmiddle, rfl, rfl⟩, rfl⟩
    exact ⟨middle, hmiddle, rfl⟩
  · rintro ⟨middle, hmiddle, rfl⟩
    exact ⟨_, _, rfl, ⟨middle, _, hmiddle, rfl, rfl⟩, rfl⟩

namespace Channel

variable {α : Type}

/-- An id is selected for the signal and for the title of its element, and for nothing else. -/
theorem fullMatch_id_iff (title : String) (signal : Signal) (c : Channel α) :
    (Accelerator.idsBetween title signal.suffix).fullMatch c.id = true ↔
      c.signal = signal ∧ c.element.Titled title := by
  have hid : c.id.toList = c.element.name.toList ++ c.signal.suffix.toList := by
    rw [id, Signal.suffix, String.append_assoc, String.toList_append]
  rw [(Accelerator.takes_idsBetween title signal.suffix).fullMatch_iff, hid]
  constructor
  · rintro ⟨middle, hmiddle, hname⟩
    rw [← List.append_assoc, Signal.append_suffix_inj] at hname
    refine ⟨hname.2, String.ofList middle, ?_, String.ext ?_⟩
    · rwa [String.toList_ofList]
    · rw [String.toList_append, String.toList_ofList, hname.1]
  · rintro ⟨rfl, rest, hrest, hname⟩
    refine ⟨rest.toList, hrest, ?_⟩
    rw [hname, String.toList_append, List.append_assoc]

/-- Signals of an element that channels of this sort are made for. -/
def offered (writable : Bool) (e : Element α) : List Signal :=
  if writable then e.optics.writable else e.optics.visible

theorem nodup_offered (writable : Bool) (e : Element α) : (offered writable e).Nodup := by
  cases writable with
  | true => exact e.nodup_writable
  | false => exact e.nodup_visible

theorem filter_ofElement (writable : Bool) (title : String) (signal : Signal) (e : Element α) :
    ((ofElement writable e).filter fun c => (Accelerator.idsBetween title signal.suffix).fullMatch c.id) =
      if signal ∈ offered writable e ∧ e.Titled title then [⟨e, signal, writable⟩] else [] := by
  have hselects (s : Signal) :
      (Accelerator.idsBetween title signal.suffix).fullMatch (Channel.id ⟨e, s, writable⟩) =
        decide (s = signal ∧ e.Titled title) := by
    rw [Bool.eq_iff_iff, fullMatch_id_iff, decide_eq_true_eq]
  change ((offered writable e).map fun s => (⟨e, s, writable⟩ : Channel α)).filter _ = _
  rw [List.filter_map]
  simp only [Function.comp_def, hselects]
  by_cases htitled : e.Titled title
  · simp only [htitled, and_true, List.filter_eq]
    by_cases hsignal : signal ∈ offered writable e
    · rw [if_pos hsignal, List.count_eq_one_of_mem (nodup_offered writable e) hsignal]
      rfl
    · rw [if_neg hsignal, List.count_eq_zero_of_not_mem hsignal]
      rfl
  · simp [htitled]

/-- The channels selected along a range are those of one signal of the elements that have it and are titled so, in the
order of the range. -/
theorem ofRange_idsBetween (r : Range α) (writable : Bool) (title : String) (signal : Signal) :
    ofRange r writable (Accelerator.idsBetween title signal.suffix).fullMatch =
      (r.elements.filter fun e => signal ∈ offered writable e ∧ e.Titled title).map fun e => ⟨e, signal, writable⟩ := by
  unfold ofRange
  induction r.elements with
  | nil => rfl
  | cons e rest ih =>
    rw [List.flatMap_cons, filter_ofElement, ih, List.filter_cons]
    by_cases hselected : signal ∈ offered writable e ∧ e.Titled title
    · rw [if_pos hselected, if_pos (decide_eq_true hselected)]
      rfl
    · rw [if_neg hselected, if_neg (by simpa using hselected)]
      rfl

end Channel

/-! ### Channels of a segment -/

namespace Plane

def only : Plane → PlaneChoice
  | x => .x
  | y => .y

def reading : Plane → Signal
  | x => .x
  | y => .y

def correctorTitle : Plane → String
  | x => "XCor"
  | y => "YCor"

theorem monitorIds_eq (plane : Plane) :
    Accelerator.monitorIds plane = Accelerator.idsBetween "BPM" plane.reading.suffix := by
  cases plane <;> rfl

theorem correctorIds_eq (plane : Plane) :
    Accelerator.correctorIds plane = Accelerator.idsBetween plane.correctorTitle Signal.strength.suffix := by
  cases plane <;> rfl

end Plane

/-- Two segments that meet make up a segment. -/
structure Segment.MadeOf (s front back : Segment) : Prop where
  first : front.first = s.first
  middle : back.first = front.last + 1
  last : back.last = s.last

namespace Model

variable {α : Type} {m : Model α} {s : Segment}

/-- Position monitors of a segment, in the order of the line. -/
def monitorsAlong (m : Model α) (s : Segment) : List (Element α) :=
  (m.slice s).elements.filter fun e => e.isMonitor ∧ e.Titled "BPM"

/-- Orbit correctors of a segment for one plane, in the order of the line. -/
def correctorsAlong (m : Model α) (plane : Plane) (s : Segment) : List (Element α) :=
  (m.slice s).elements.filter fun e => e.isCorrector ∧ e.Titled plane.correctorTitle

def readingsAlong (m : Model α) (plane : Plane) (s : Segment) : List (Channel α) :=
  (m.monitorsAlong s).map fun e => ⟨e, plane.reading, false⟩

def strengthsAlong (m : Model α) (plane : Plane) (s : Segment) : List (Channel α) :=
  (m.correctorsAlong plane s).map fun e => ⟨e, .strength, true⟩

theorem ofRange_monitorIds (m : Model α) (plane : Plane) (s : Segment) :
    Channel.ofRange (m.slice s) false (Accelerator.monitorIds plane).fullMatch = m.readingsAlong plane s := by
  have hoffered (e : Element α) : plane.reading ∈ Channel.offered false e ↔ e.isMonitor = true := by
    cases plane with
    | x => exact Element.x_mem_visible_iff
    | y => exact Element.y_mem_visible_iff
  rw [plane.monitorIds_eq, Channel.ofRange_idsBetween, readingsAlong, monitorsAlong]
  simp only [hoffered]

theorem ofRange_correctorIds (m : Model α) (plane : Plane) (s : Segment) :
    Channel.ofRange (m.slice s) true (Accelerator.correctorIds plane).fullMatch = m.strengthsAlong plane s := by
  have hoffered (e : Element α) : Signal.strength ∈ Channel.offered true e ↔ e.isCorrector = true :=
    Element.strength_mem_writable_iff
  rw [plane.correctorIds_eq, Channel.ofRange_idsBetween, strengthsAlong, correctorsAlong]
  simp only [hoffered]

theorem channelsAlong_only (m : Model α) (ids : Plane → Pattern.Node) (writable : Bool) (plane : Plane) (s : Segment) :
    m.channelsAlong ids writable plane.only s = Channel.ofRange (m.slice s) writable (ids plane).fullMatch := by
  cases plane <;> exact List.append_nil _

theorem channelsAlong_both (m : Model α) (ids : Plane → Pattern.Node) (writable : Bool) (s : Segment) :
    m.channelsAlong ids writable .both s =
      Channel.ofRange (m.slice s) writable (ids .x).fullMatch ++
        Channel.ofRange (m.slice s) writable (ids .y).fullMatch := by
  rw [channelsAlong, PlaneChoice.planes, List.flatMap_cons, List.flatMap_singleton]

/-! ### Segments that meet -/

theorem elements_slice_of_madeOf {front back : Segment} (h : s.MadeOf front back) :
    (m.slice front).elements ++ (m.slice back).elements = (m.slice s).elements := by
  have hfront := front.ordered
  have hback := back.ordered
  have hmiddle := h.middle
  have hlast := h.last
  rw [slice_eq_part, slice_eq_part, slice_eq_part, hmiddle, hlast, h.first]
  rw [h.first] at hfront
  exact m.elements_part_append (by omega) (by omega)

theorem readingsAlong_of_madeOf {front back : Segment} (h : s.MadeOf front back) (plane : Plane) :
    m.readingsAlong plane s = m.readingsAlong plane front ++ m.readingsAlong plane back := by
  simp only [readingsAlong, monitorsAlong]
  rw [← elements_slice_of_madeOf h, List.filter_append, List.map_append]

theorem strengthsAlong_of_madeOf {front back : Segment} (h : s.MadeOf front back) (plane : Plane) :
    m.strengthsAlong plane s = m.strengthsAlong plane front ++ m.strengthsAlong plane back := by
  simp only [strengthsAlong, correctorsAlong]
  rw [← elements_slice_of_madeOf h, List.filter_append, List.map_append]

/-! ### Repetitions -/

theorem sublist_slice (m : Model α) (s : Segment) : (m.slice s).elements.Sublist m.elements :=
  (List.take_sublist _ _).trans (List.drop_sublist _ _)

theorem nodup_readingsAlong (hnames : (m.elements.map Element.name).Nodup) (plane : Plane) (s : Segment) :
    (m.readingsAlong plane s).Nodup := by
  have hmonitors : ((m.monitorsAlong s).map Element.name).Nodup :=
    hnames.sublist ((List.filter_sublist.trans (m.sublist_slice s)).map Element.name)
  apply List.Nodup.of_map fun c => c.element.name
  rw [readingsAlong, List.map_map]
  exact hmonitors

/-- No corrector steers in both planes. -/
theorem nodup_names_strengthsAlong (hnames : (m.elements.map Element.name).Nodup) (s : Segment) :
    ((m.strengthsAlong .x s ++ m.strengthsAlong .y s).map fun c => c.element.name).Nodup := by
  have hplane (plane : Plane) : ((m.correctorsAlong plane s).map Element.name).Nodup :=
    hnames.sublist ((List.filter_sublist.trans (m.sublist_slice s)).map Element.name)
  have hcorrectors (plane : Plane) :
      (m.strengthsAlong plane s).map (fun c => c.element.name) = (m.correctorsAlong plane s).map Element.name :=
    List.map_map
  rw [List.map_append, hcorrectors, hcorrectors]
  refine List.nodup_append.mpr ⟨hplane .x, hplane .y, ?_⟩
  intro name hx name' hy hsame
  obtain ⟨e, he, rfl⟩ := List.mem_map.mp hx
  obtain ⟨f, hf, rfl⟩ := List.mem_map.mp hy
  obtain ⟨he, hetitle⟩ := List.mem_filter.mp he
  obtain ⟨hf, hftitle⟩ := List.mem_filter.mp hf
  obtain rfl : e = f :=
    List.inj_on_of_nodup_map hnames ((m.sublist_slice s).subset he) ((m.sublist_slice s).subset hf) hsame
  exact Element.not_titled_of_titled (by decide) (by decide) (of_decide_eq_true hetitle).2 (of_decide_eq_true hftitle).2

theorem mem_of_mem_strengthsAlong {plane : Plane} {c : Channel α} (h : c ∈ m.strengthsAlong plane s) :
    c.element ∈ m.elements ∧ c.signal = .strength ∧ c.writable = true := by
  obtain ⟨e, he, rfl⟩ := List.mem_map.mp h
  exact ⟨(m.sublist_slice s).subset (List.mem_filter.mp he).1, rfl, rfl⟩

end Model

namespace Channel

variable {α : Type} [Scalar α]

/-- Strengths of different elements read what was written. -/
theorem readAll_stored {channels : List (Channel α)} {values : List α} (hcount : values.length = channels.length)
    (hsignal : ∀ c ∈ channels, c.signal = .strength) (hdistinct : (channels.map fun c => c.element.tag).Nodup)
    (s : Signals α) : readAll (stored s (channels.zip values)) channels = values := by
  apply List.ext_getElem?
  intro i
  cases hi : channels[i]? with
  | none =>
    have hbeyond : channels.length ≤ i := List.getElem?_eq_none_iff.mp hi
    rw [readAll, List.getElem?_map, hi, List.getElem?_eq_none (by omega)]
    rfl
  | some c =>
    have hlast : IsLast channels c.element c.signal i := by
      refine ⟨⟨c, hi, c.addresses_self⟩, fun k hik d hd haddresses => ?_⟩
      have hlength : i < (channels.map fun c => c.element.tag).length := by
        rw [List.length_map]
        exact (List.getElem?_eq_some_iff.mp hi).1
      have hsame : i = k := by
        apply (List.getElem?_inj hlength hdistinct).mp
        rw [List.getElem?_map, List.getElem?_map, hi, hd, Option.map_some, Option.map_some, haddresses.1]
      omega
    rw [getElem?_readAll hi, hlast.value_stored hcount hsignal]

end Channel

namespace Accelerator

variable {α : Type}

theorem monitorChannels_eq {a : Accelerator α} {m : Model α} {argument : SegmentArgument} {s : Segment}
    (hresolve : a.resolve m argument = .ok s) (hlast : s.last < m.length) :
    (∀ plane : Plane, a.monitorChannels m plane.only argument = .ok (m.readingsAlong plane s)) ∧
      a.monitorChannels m .both argument = .ok (m.readingsAlong .x s ++ m.readingsAlong .y s) := by
  constructor
  · intro plane
    rw [monitorChannels, channels_of_resolve hresolve hlast, m.channelsAlong_only, m.ofRange_monitorIds]
  · rw [monitorChannels, channels_of_resolve hresolve hlast, m.channelsAlong_both, m.ofRange_monitorIds,
      m.ofRange_monitorIds]

theorem correctorChannels_eq {a : Accelerator α} {m : Model α} {argument : SegmentArgument} {s : Segment}
    (hresolve : a.resolve m argument = .ok s) (hlast : s.last < m.length) :
    (∀ plane : Plane, a.correctorChannels m plane.only argument = .ok (m.strengthsAlong plane s)) ∧
      a.correctorChannels m .both argument = .ok (m.strengthsAlong .x s ++ m.strengthsAlong .y s) := by
  constructor
  · intro plane
    rw [correctorChannels, channels_of_resolve hresolve hlast, m.channelsAlong_only, m.ofRange_correctorIds]
  · rw [correctorChannels, channels_of_resolve hresolve hlast, m.channelsAlong_both, m.ofRange_correctorIds,
      m.ofRange_correctorIds]

/-- In a segment of a line whose tags stand for one element each, the readings of a plane are those of all position
monitors, each once and in the order of the line; the two planes list the same monitors, so that places pair them. The
strengths of a plane are those of all its correctors. Both planes are the horizontal one and the vertical one behind it,
which have no corrector in common: what is written to them is what they read. Segments that meet list what the segment
that they make up lists. -/
theorem steering_channels_are_aligned [Scalar α] {m : Model α} (hm : m.WellFormed)
    (htags : ∀ e ∈ m.elements, ∀ f ∈ m.elements, e.tag = f.tag → e.name = f.name) {a : Accelerator α}
    {argument : SegmentArgument} {s : Segment} (hresolve : a.resolve m argument = .ok s) (hlast : s.last < m.length) :
    (∀ plane : Plane, a.monitorChannels m plane.only argument = .ok (m.readingsAlong plane s) ∧
      (m.readingsAlong plane s).Nodup) ∧
    a.monitorChannels m .both argument = .ok (m.readingsAlong .x s ++ m.readingsAlong .y s) ∧
    (∀ k : Nat, (m.readingsAlong .x s)[k]?.map Channel.element = (m.readingsAlong .y s)[k]?.map Channel.element) ∧
    (∀ plane : Plane, a.correctorChannels m plane.only argument = .ok (m.strengthsAlong plane s)) ∧
    a.correctorChannels m .both argument = .ok (m.strengthsAlong .x s ++ m.strengthsAlong .y s) ∧
    (m.strengthsAlong .x s ++ m.strengthsAlong .y s).Nodup ∧
    (∀ (values : List α) (signals : Signals α),
      values.length = (m.strengthsAlong .x s ++ m.strengthsAlong .y s).length →
        ∃ signals', (Channel.writeAll (m.strengthsAlong .x s ++ m.strengthsAlong .y s) values).run signals =
            (.ok (), signals') ∧
          Channel.readAll signals' (m.strengthsAlong .x s ++ m.strengthsAlong .y s) = values) ∧
    ∀ front back : Segment, s.MadeOf front back → ∀ plane : Plane,
      (∃ cs ds, a.monitorChannels m plane.only (.segment front) = .ok cs ∧
        a.monitorChannels m plane.only (.segment back) = .ok ds ∧
        a.monitorChannels m plane.only argument = .ok (cs ++ ds)) ∧
      ∃ cs ds, a.correctorChannels m plane.only (.segment front) = .ok cs ∧
        a.correctorChannels m plane.only (.segment back) = .ok ds ∧
        a.correctorChannels m plane.only argument = .ok (cs ++ ds) := by
  obtain ⟨hmonitors, hboth⟩ := monitorChannels_eq hresolve hlast
  obtain ⟨hcorrectors, hboth'⟩ := correctorChannels_eq hresolve hlast
  have hdistinct := m.nodup_names_strengthsAlong hm.distinct s
  refine ⟨fun plane => ⟨hmonitors plane, m.nodup_readingsAlong hm.distinct plane s⟩, hboth, ?_, hcorrectors, hboth',
    hdistinct.of_map, ?_, ?_⟩
  · intro k
    simp only [Model.readingsAlong, List.getElem?_map, Option.map_map]
    rfl
  · intro values signals hcount
    have hmem {c : Channel α} (hc : c ∈ m.strengthsAlong .x s ++ m.strengthsAlong .y s) :
        c.element ∈ m.elements ∧ c.signal = .strength ∧ c.writable = true := by
      rcases List.mem_append.mp hc with hc | hc <;> exact Model.mem_of_mem_strengthsAlong hc
    have htags' : ((m.strengthsAlong .x s ++ m.strengthsAlong .y s).map fun c => c.element.tag).Nodup := by
      refine List.Nodup.map_on ?_ hdistinct.of_map
      intro c hc d hd htag
      exact List.inj_on_of_nodup_map hdistinct hc hd (htags _ (hmem hc).1 _ (hmem hd).1 htag)
    exact ⟨_, Channel.run_writeAll hcount (fun c hc => (hmem hc).2.2) signals,
      Channel.readAll_stored hcount (fun c hc => (hmem hc).2.1) htags' signals⟩
  · intro front back hmade plane
    have hfront : a.resolve m (.segment front) = .ok front := by
      have hordered := back.ordered
      have hmiddle := hmade.middle
      have hend := hmade.last
      exact SegmentArgument.within_of_last_lt (by omega)
    have hback : a.resolve m (.segment back) = .ok back := by
      have hend := hmade.last
      exact SegmentArgument.within_of_last_lt (by omega)
    have hfirst := SegmentArgument.last_lt_of_within hfront
    have hsecond := SegmentArgument.last_lt_of_within hback
    refine ⟨⟨_, _, (monitorChannels_eq hfront hfirst).1 plane, (monitorChannels_eq hback hsecond).1 plane, ?_⟩,
      _, _, (correctorChannels_eq hfront hfirst).1 plane, (correctorChannels_eq hback hsecond).1 plane, ?_⟩
    · rw [hmonitors, Model.readingsAlong_of_madeOf hmade]
    · rw [hcorrectors, Model.strengthsAlong_of_madeOf hmade]

end Accelerator

namespace SteeredLine

open SmallMachine

/-- Monitors and correctors of which some have names that could pass for an id, or a line feed in the name. -/
def line : Model Int where
  name := "line"
  elements := [⟨0, "BPM.Y", "Monitor", 0, .monitor 0 0⟩, ⟨1, "XCor1", "Corrector", 0, .corrector .x 0⟩,
    ⟨2, "BPM\n2", "Monitor", 0, .monitor 0 0⟩, ⟨3, "YCor.X", "Corrector", 0, .corrector .y 0⟩,
    ⟨4, "BPM4", "Corrector", 0, .corrector .x 0⟩, ⟨5, "BPM5", "Monitor", 0, .monitor 0 0⟩]

def ring : Accelerator Int := { name := "ring" }

def whole : Segment := ⟨0, 5, by decide⟩

theorem wellFormed_line : line.WellFormed := ⟨by decide +kernel, nofun⟩

theorem steering_channels_of_line :
    line.WellFormed ∧ (∀ e ∈ line.elements, ∀ f ∈ line.elements, e.tag = f.tag → e.name = f.name) ∧
    (∃ found, ring.monitorChannels line .both (.segment whole) = .ok found ∧
      found.map Channel.id = ["BPM.Y.X", "BPM5.X", "BPM.Y.Y", "BPM5.Y"]) ∧
    (∃ found signals', ring.correctorChannels line .both (.segment whole) = .ok found ∧
      found.map Channel.id = ["XCor1.B0", "YCor.X.B0"] ∧
      (Channel.writeAll found [7, 8]).run {} = (.ok (), signals') ∧ Channel.readAll signals' found = [7, 8]) ∧
    ∃ cs ds, ring.monitorChannels line .y (.segment ⟨0, 2, by decide⟩) = .ok cs ∧
      ring.monitorChannels line .y (.segment ⟨3, 5, by decide⟩) = .ok ds ∧
      ring.monitorChannels line .y (.segment whole) = .ok (cs ++ ds) := by
  have htags : ∀ e ∈ line.elements, ∀ f ∈ line.elements, e.tag = f.tag → e.name = f.name := by decide +kernel
  have hresolve : ring.resolve line (.segment whole) = .ok whole := rfl
  obtain ⟨-, hmonitors, -, -, hcorrectors, -, hwritten, hmade⟩ :=
    Accelerator.steering_channels_are_aligned wellFormed_line htags hresolve (by decide)
  have hmeet := (hmade ⟨0, 2, by decide⟩ ⟨3, 5, by decide⟩ ⟨rfl, rfl, rfl⟩ .y).1
  refine ⟨wellFormed_line, htags, ⟨_, hmonitors, by decide +kernel⟩, ?_, hmeet⟩
  obtain ⟨signals', hwrite, hread⟩ := hwritten [7, 8] {} (by decide +kernel)
  exact ⟨_, signals', hcorrectors, by decide +kernel, hwrite, hread⟩

end SteeredLine

end BeamOptics
