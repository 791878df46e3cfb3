import BeamOptics.Decimal.Double
import BeamOptics.Lattice.Channel
import BeamOptics.Proofs.Action

/-!
# Arrays of channels

The values of an array are written one by one, so that of two channels for one signal the later one wins. A channel
that can only be read is found out when its turn comes, and what was written before it stays written. Only what is
refused by the count of values, or at the first channel, leaves everything as it was.
-/

namespace BeamOptics

namespace Channel

variable {α : Type}

/-- A channel that an element was asked for. -/
inductive IsMade : Channel α → Prop
  | reader {e : Element α} {name : String} {c : Channel α} (h : reader e name = .ok c) : IsMade c
  | writer {e : Element α} {name : String} {c : Channel α} (h : writer e name = .ok c) : IsMade c

/-- The channel is one for this signal of this element. -/
def Addresses (c : Channel α) (e : Element α) (signal : Signal) : Prop := c.element.tag = e.tag ∧ c.signal = signal

theorem addresses_self (c : Channel α) : c.Addresses c.element c.signal := ⟨rfl, rfl⟩

/-! ### How channels are made -/

theorem signal?_name {signals : List Signal} {signal : Signal} (h : signal ∈ signals) :
    Element.signal? signals signal.name = some signal := by
  cases hfound : Element.signal? signals signal.name with
  | none =>
    rw [Element.signal?, List.find?_eq_none] at hfound
    exact absurd (beq_self_eq_true signal.name) (hfound signal h)
  | some other =>
    have hname : other.name = signal.name := by simpa using List.find?_some hfound
    cases other <;> cases signal <;> first | rfl | exact absurd hname (by decide)

theorem isMade_of_mem_ofElement {writable : Bool} {e : Element α} {c : Channel α} (h : c ∈ ofElement writable e) :
    c.IsMade := by
  obtain ⟨signal, hsignal, rfl⟩ := List.mem_map.mp h
  cases writable with
  | true =>
    have hfound : Element.signal? e.optics.writable signal.name = some signal := signal?_name hsignal
    have hwriter : Channel.writer e signal.name = .ok ⟨e, signal, true⟩ := by rw [Channel.writer, hfound]
    exact .writer hwriter
  | false =>
    have hfound : Element.signal? e.optics.visible signal.name = some signal := signal?_name hsignal
    have hreader : Channel.reader e signal.name = .ok ⟨e, signal, false⟩ := by rw [Channel.reader, hfound]
    exact .reader hreader

theorem isMade_of_mem_ofRange {r : Range α} {writable : Bool} {p : String → Bool} {c : Channel α}
    (h : c ∈ ofRange r writable p) : c.IsMade := by
  obtain ⟨e, -, hc⟩ := List.mem_flatMap.mp h
  exact isMade_of_mem_ofElement (List.mem_filter.mp hc).1

/-- Only strengths can be written. -/
theorem IsMade.signal_eq {c : Channel α} (h : c.IsMade) (hwritable : c.writable = true) : c.signal = .strength := by
  cases h with
  | reader h =>
    rw [Channel.reader] at h
    split at h
    · obtain rfl := Except.ok.inj h
      cases hwritable
    · cases h
  | @writer e name _ h =>
    rw [Channel.writer] at h
    split at h
    · rename_i signal hsignal
      obtain rfl := Except.ok.inj h
      have hmem : signal ∈ e.optics.writable := List.mem_of_find?_eq_some hsignal
      cases hoptics : e.optics <;> simp_all [Optics.writable]
    · cases h

/-! ### Writing one value after the other -/

variable {channels : List (Channel α)} {values : List α}

/-- The signals after each value was written to its channel. -/
def stored (s : Signals α) (writes : List (Channel α × α)) : Signals α :=
  writes.foldl (fun s w => s.setStrength w.1.element w.2) s

theorem stored_cons (s : Signals α) (w : Channel α × α) (writes : List (Channel α × α)) :
    stored s (w :: writes) = stored (s.setStrength w.1.element w.2) writes := rfl

theorem stored_append (s : Signals α) (writes later : List (Channel α × α)) :
    stored s (writes ++ later) = stored (stored s writes) later := List.foldl_append

theorem run_write {c : Channel α} (h : c.writable = true) (value : α) (s : Signals α) :
    (c.write value).run s = (.ok (), s.setStrength c.element value) := by
  rw [write, if_pos h]
  exact Action.run_update _ s

theorem run_write_reader {c : Channel α} (h : c.writable = false) (value : α) (s : Signals α) :
    (c.write value).run s = (.error (.readOnlyChannel c.id), s) := by
  rw [write, if_neg (by simp [h])]
  exact Action.run_throw _ s

theorem run_writeEach (h : ∀ c ∈ channels, c.writable = true) (s : Signals α) :
    (writeEach channels values).run s = (.ok (), stored s (channels.zip values)) := by
  induction channels generalizing values s with
  | nil => rfl
  | cons c channels ih =>
    cases values with
    | nil => rfl
    | cons value values =>
      rw [writeEach, Action.run_bind_of_ok (run_write (h c List.mem_cons_self) value s),
        ih fun c' hc' => h c' (List.mem_cons_of_mem _ hc')]
      rfl

/-- Writing stops at the first channel that can only be read. -/
theorem run_writeEach_reader {before after : List (Channel α)} {c : Channel α} (h : ∀ d ∈ before, d.writable = true)
    (hc : c.writable = false) (hvalues : before.length < values.length) (s : Signals α) :
    (writeEach (before ++ c :: after) values).run s =
      (.error (.readOnlyChannel c.id), stored s (before.zip values)) := by
  induction before generalizing values s with
  | nil =>
    cases values with
    | nil => cases hvalues
    | cons value values =>
      rw [List.nil_append, writeEach, Action.run_bind_of_error (run_write_reader hc value s)]
      rfl
  | cons d before ih =>
    cases values with
    | nil => cases hvalues
    | cons value values =>
      rw [List.cons_append, writeEach, Action.run_bind_of_ok (run_write (h d List.mem_cons_self) value s),
        ih (fun d' hd' => h d' (List.mem_cons_of_mem _ hd')) (Nat.lt_of_succ_lt_succ hvalues)]
      rfl

theorem run_writeAll_of_count (h : values.length ≠ channels.length) (s : Signals α) :
    (writeAll channels values).run s = (.error (.valueCount channels.length values.length), s) := by
  rw [writeAll, if_neg h]
  exact Action.run_throw _ s

theorem run_writeAll (hcount : values.length = channels.length) (h : ∀ c ∈ channels, c.writable = true)
    (s : Signals α) : (writeAll channels values).run s = (.ok (), stored s (channels.zip values)) := by
  rw [writeAll, if_pos hcount, run_writeEach h]

theorem run_writeAll_reader {before after : List (Channel α)} {c : Channel α}
    (hcount : values.length = (before ++ c :: after).length) (h : ∀ d ∈ before, d.writable = true)
    (hc : c.writable = false) (s : Signals α) :
    (writeAll (before ++ c :: after) values).run s =
      (.error (.readOnlyChannel c.id), stored s (before.zip values)) := by
  have hvalues : before.length < values.length := by
    rw [hcount, List.length_append, List.length_cons]
    omega
  rw [writeAll, if_pos hcount, run_writeEach_reader h hc hvalues]

/-- The first channel of an array that can only be read. -/
theorem exists_first_reader (h : ¬∀ c ∈ channels, c.writable = true) :
    ∃ before c after, channels = before ++ c :: after ∧ (∀ d ∈ before, d.writable = true) ∧ c.writable = false := by
  induction channels with
  | nil => exact absurd nofun h
  | cons c channels ih =>
    by_cases hc : c.writable = true
    · obtain ⟨before, c', after, rfl, hbefore, hc'⟩ := ih fun hall => h (List.forall_mem_cons.mpr ⟨hc, hall⟩)
      exact ⟨c :: before, c', after, rfl, List.forall_mem_cons.mpr ⟨hc, hbefore⟩, hc'⟩
    · exact ⟨[], c, channels, rfl, nofun, by simpa using hc⟩

theorem run_writeAll_eq_ok_iff (s : Signals α) :
    ((writeAll channels values).run s).1 = .ok () ↔
      values.length = channels.length ∧ ∀ c ∈ channels, c.writable = true := by
  by_cases hcount : values.length = channels.length
  · by_cases hall : ∀ c ∈ channels, c.writable = true
    · rw [run_writeAll hcount hall]
      exact iff_of_true rfl ⟨hcount, hall⟩
    · obtain ⟨before, c, after, rfl, hbefore, hc⟩ := exists_first_reader hall
      rw [run_writeAll_reader hcount hbefore hc]
      exact iff_of_false nofun fun h => hall h.2
  · rw [run_writeAll_of_count hcount]
    exact iff_of_false nofun fun h => hcount h.1

/-! ### The last channel for a signal -/

/-- The last position of an array that addresses a signal. -/
structure IsLast (channels : List (Channel α)) (e : Element α) (signal : Signal) (j : Nat) : Prop where
  addresses : ∃ d, channels[j]? = some d ∧ d.Addresses e signal
  last : ∀ k, j < k → ∀ d, channels[k]? = some d → ¬d.Addresses e signal

theorem exists_isLast {e : Element α} {signal : Signal} {i : Nat} {c : Channel α} (hi : channels[i]? = some c)
    (hc : c.Addresses e signal) : ∃ j, i ≤ j ∧ IsLast channels e signal j := by
  -- the distance to the end goes down as long as there is a later position
  induction hn : channels.length - i using Nat.strongRecOn generalizing i c with
  | ind n ih =>
    by_cases hlater : ∃ k d, i < k ∧ channels[k]? = some d ∧ d.Addresses e signal
    · obtain ⟨k, d, hik, hk, hd⟩ := hlater
      have hlt : k < channels.length := (List.getElem?_eq_some_iff.mp hk).1
      obtain ⟨j, hkj, hj⟩ := ih (channels.length - k) (by omega) hk hd rfl
      exact ⟨j, by omega, hj⟩
    · exact ⟨i, Nat.le_refl i, ⟨c, hi, hc⟩, fun k hik d hk hd => hlater ⟨k, d, hik, hk, hd⟩⟩

/-! ### What the signals are afterwards -/

variable [Scalar α]

theorem reading_stored (s : Signals α) (writes : List (Channel α × α)) (e : Element α) :
    (stored s writes).reading e = s.reading e := by
  induction writes generalizing s with
  | nil => rfl
  | cons w writes ih => rw [stored_cons, ih, Signals.reading_setStrength]

theorem strength_stored_of_forall_ne {s : Signals α} {writes : List (Channel α × α)} {e : Element α}
    (h : ∀ w ∈ writes, w.1.element.tag ≠ e.tag) : (stored s writes).strength e = s.strength e := by
  induction writes generalizing s with
  | nil => rfl
  | cons w writes ih =>
    rw [stored_cons, ih fun w' hw' => h w' (List.mem_cons_of_mem _ hw'),
      Signals.strength_setStrength_of_ne s w.2 (h w List.mem_cons_self)]

theorem strength_setStrength_of_tag_eq (s : Signals α) {e f : Element α} (h : e.tag = f.tag) (value : α) :
    (s.setStrength e value).strength f = value := by
  rw [Signals.strength, Signals.setStrength, h, Table.get?_insert_self, Option.getD_some]

/-- What was written last is what stands. -/
theorem strength_stored_append {s : Signals α} {writes later : List (Channel α × α)} {w : Channel α × α}
    {e : Element α} (hw : w.1.element.tag = e.tag) (hlater : ∀ w' ∈ later, w'.1.element.tag ≠ e.tag) :
    (stored s (writes ++ w :: later)).strength e = w.2 := by
  rw [stored_append, stored_cons, strength_stored_of_forall_ne hlater, strength_setStrength_of_tag_eq _ hw]

theorem value_stored_of_forall {s : Signals α} {writes : List (Channel α × α)} {e : Element α} {signal : Signal}
    (hsignal : ∀ w ∈ writes, w.1.signal = .strength) (h : ∀ w ∈ writes, ¬w.1.Addresses e signal) :
    (stored s writes).value e signal = s.value e signal := by
  cases signal with
  | x => exact congrArg Prod.fst (reading_stored s writes e)
  | y => exact congrArg Prod.snd (reading_stored s writes e)
  | strength => exact strength_stored_of_forall_ne fun w hw htag => h w hw ⟨htag, hsignal w hw⟩

/-- After an array was written, a signal has the value for the last position that addresses it. -/
theorem IsLast.value_stored {e : Element α} {signal : Signal} {j : Nat} (h : IsLast channels e signal j)
    (hcount : values.length = channels.length) (hsignal : ∀ c ∈ channels, c.signal = .strength) (s : Signals α) :
    values[j]? = some ((stored s (channels.zip values)).value e signal) := by
  obtain ⟨d, hd, htag, hstrength⟩ := h.addresses
  obtain ⟨hj, hdj⟩ := List.getElem?_eq_some_iff.mp hd
  obtain rfl : signal = .strength := hstrength.symm.trans (hsignal d (List.mem_of_getElem? hd))
  have hvalue : j < values.length := by omega
  have hzip : channels.zip values =
      (channels.zip values).take j ++ (d, values[j]) :: (channels.zip values).drop (j + 1) := by
    have hwrite : (channels.zip values)[j]? = some (d, values[j]) :=
      List.getElem?_zip_eq_some.mpr ⟨hd, List.getElem?_eq_getElem hvalue⟩
    obtain ⟨_, hget⟩ := List.getElem?_eq_some_iff.mp hwrite
    rw [← hget, List.getElem_cons_drop, List.take_append_drop]
  have hlater : ∀ w ∈ (channels.zip values).drop (j + 1), w.1.element.tag ≠ e.tag := by
    intro w hw htag'
    obtain ⟨k, hk⟩ := List.mem_iff_getElem?.mp hw
    rw [List.getElem?_drop, List.getElem?_zip_eq_some] at hk
    exact h.last (j + 1 + k) (by omega) w.1 hk.1 ⟨htag', hsignal _ (List.mem_of_getElem? hk.1)⟩
  rw [List.getElem?_eq_getElem hvalue, Signals.value, hzip, strength_stored_append htag hlater]

theorem getElem?_readAll {i : Nat} {c : Channel α} (hi : channels[i]? = some c) (s : Signals α) :
    (readAll s channels)[i]? = some (s.value c.element c.signal) := by
  rw [readAll, List.getElem?_map, hi]
  rfl

/-- Writing an array succeeds just if there is a value for each channel and each channel can be written. Then each
channel reads what was written by the last position for its signal, and no other signal is changed. If the count of
values is wrong, nothing is written. If a channel can only be read, the channels before the first such one are
written as they would be alone, and the others are not. -/
theorem writeAll_stops_at_first_reader (channels : List (Channel α)) (hmade : ∀ c ∈ channels, c.IsMade)
    (values : List α) (s : Signals α) :
    (((writeAll channels values).run s).1 = .ok () ↔
      values.length = channels.length ∧ ∀ c ∈ channels, c.writable = true) ∧
    (((writeAll channels values).run s).1 = .ok () →
      (∀ i c, channels[i]? = some c → ∃ j, i ≤ j ∧ IsLast channels c.element c.signal j ∧
        (readAll ((writeAll channels values).run s).2 channels)[i]? = values[j]?) ∧
      ∀ e signal, (∀ c ∈ channels, ¬c.Addresses e signal) →
        ((writeAll channels values).run s).2.value e signal = s.value e signal) ∧
    (values.length ≠ channels.length →
      (writeAll channels values).run s = (.error (.valueCount channels.length values.length), s)) ∧
    (values.length = channels.length → (∃ c ∈ channels, c.writable = false) →
      ∃ before c after, channels = before ++ c :: after ∧ c.writable = false ∧
        ((writeAll before (values.take before.length)).run s).1 = .ok () ∧
        (writeAll channels values).run s =
          (.error (.readOnlyChannel c.id), ((writeAll before (values.take before.length)).run s).2)) := by
  refine ⟨run_writeAll_eq_ok_iff s, ?_, fun hcount => run_writeAll_of_count hcount s, ?_⟩
  · intro hgranted
    obtain ⟨hcount, hall⟩ := (run_writeAll_eq_ok_iff s).mp hgranted
    have hsignal (c : Channel α) (hc : c ∈ channels) : c.signal = .strength := (hmade c hc).signal_eq (hall c hc)
    rw [run_writeAll hcount hall]
    constructor
    · intro i c hi
      obtain ⟨j, hij, hj⟩ := exists_isLast hi c.addresses_self
      refine ⟨j, hij, hj, ?_⟩
      rw [getElem?_readAll hi, hj.value_stored hcount hsignal]
    · intro e signal hothers
      exact value_stored_of_forall (fun w hw => hsignal w.1 (List.of_mem_zip hw).1)
        fun w hw => hothers w.1 (List.of_mem_zip hw).1
  · rintro hcount ⟨c', hc', hreader⟩
    have hall : ¬∀ c ∈ channels, c.writable = true := fun hall => by simp [hall c' hc'] at hreader
    obtain ⟨before, c, after, rfl, hbefore, hc⟩ := exists_first_reader hall
    have hlength : (values.take before.length).length = before.length := by
      rw [List.length_take, hcount, List.length_append]
      omega
    have hzip : before.zip (values.take before.length) = before.zip values := by
      rw [@List.zip_eq_zip_take_min _ _ before values, hcount, List.length_append, Nat.min_eq_left (by omega),
        List.take_length]
    refine ⟨before, c, after, rfl, hc, ?_⟩
    rw [run_writeAll hlength hbefore, run_writeAll_reader hcount hbefore hc, hzip]
    exact ⟨rfl, rfl⟩

end Channel

namespace SteeredCell

open Channel

def steerer : Element Float := ⟨0, "XCor1", "Corrector", 0, .corrector .x 0⟩

def watcher : Element Float := ⟨1, "BPM1", "Monitor", 0, .monitor 0 0⟩

/-- The steerer twice, to be written. -/
def steering : List (Channel Float) := [⟨steerer, .strength, true⟩, ⟨steerer, .strength, true⟩]

/-- The steerer to be written, and a position that can only be read. -/
def mixed : List (Channel Float) := [⟨steerer, .strength, true⟩, ⟨watcher, .x, false⟩]

def cell : Range Float := ⟨0, [steerer, watcher]⟩

theorem isMade_steerer : IsMade (⟨steerer, .strength, true⟩ : Channel Float) :=
  isMade_of_mem_ofRange (show _ ∈ ofRange cell true fun _ => true from List.mem_singleton_self _)

theorem isMade_watcher : IsMade (⟨watcher, .x, false⟩ : Channel Float) :=
  isMade_of_mem_ofRange (show _ ∈ ofRange cell false fun _ => true from
    List.mem_flatMap.mpr ⟨watcher, by simp [cell], List.mem_cons_self⟩)

theorem isMade_of_mem_steering : ∀ c ∈ steering, c.IsMade := by
  intro c hc
  simp only [steering, List.mem_cons, List.not_mem_nil, or_false, or_self] at hc
  exact hc ▸ isMade_steerer

theorem isMade_of_mem_mixed : ∀ c ∈ mixed, c.IsMade := by
  intro c hc
  simp only [mixed, List.mem_cons, List.not_mem_nil, or_false] at hc
  rcases hc with rfl | rfl
  · exact isMade_steerer
  · exact isMade_watcher

/-- Both channels of the steerer read what was written last, and a reader behind a steerer ends the writing. -/
theorem writeAll_steering :
    (∀ c ∈ steering, c.IsMade) ∧ (∀ c ∈ mixed, c.IsMade) ∧
      (∃ j, 0 ≤ j ∧ IsLast steering steerer .strength j ∧
        (readAll ((writeAll steering [1, 2]).run ({} : Signals Float)).2 steering)[0]? = ([1, 2] : List Float)[j]?) ∧
      (writeAll steering [1]).run ({} : Signals Float) = (.error (.valueCount 2 1), {}) ∧
      ∃ before c after, mixed = before ++ c :: after ∧ c.writable = false ∧
        (writeAll mixed [1, 2]).run ({} : Signals Float) =
          (.error (.readOnlyChannel c.id), ((writeAll before (([1, 2] : List Float).take before.length)).run {}).2) := by
  obtain ⟨hgranted, hread, -, -⟩ := writeAll_stops_at_first_reader steering isMade_of_mem_steering [1, 2] {}
  obtain ⟨-, -, hcount, -⟩ := writeAll_stops_at_first_reader steering isMade_of_mem_steering [1] {}
  obtain ⟨-, -, -, hstopped⟩ := writeAll_stops_at_first_reader mixed isMade_of_mem_mixed [1, 2] {}
  refine ⟨isMade_of_mem_steering, isMade_of_mem_mixed, ?_, hcount (by decide), ?_⟩
  · exact (hread (hgranted.mpr (by decide))).1 0 ⟨steerer, .strength, true⟩ rfl
  · obtain ⟨before, c, after, hmixed, hc, -, hrun⟩ := hstopped rfl ⟨⟨watcher, .x, false⟩, by simp [mixed], rfl⟩
    exact ⟨before, c, after, hmixed, hc, hrun⟩

/-- A refused writing that is not undone: the steerer has its new strength. -/
theorem mixed_is_left_half_written :
    (∀ c ∈ mixed, c.IsMade) ∧
      ((writeAll mixed [1, 2]).run ({} : Signals Float)).1 = .error (.readOnlyChannel "BPM1.X") ∧
      readAll ({} : Signals Float) mixed = [0, 0] ∧
      readAll ((writeAll mixed [1, 2]).run ({} : Signals Float)).2 mixed = [1, 0] ∧
      readAll ((writeAll mixed [1, 2]).run ({} : Signals Float)).2 mixed ≠ readAll ({} : Signals Float) mixed := by
  exact ⟨isMade_of_mem_mixed, rfl, rfl, rfl, by decide +kernel⟩

end SteeredCell

end BeamOptics
