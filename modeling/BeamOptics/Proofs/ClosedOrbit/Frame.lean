import Mathlib.Data.List.Basic
import BeamOptics.ClosedOrbit.Rms
import BeamOptics.ClosedOrbit.Search
import BeamOptics.Proofs.Lattice.Part
import BeamOptics.Proofs.Tracking.Frame

/-!
# What orbit searches leave alone

A search attaches processes under numbers that are new to the plant, and takes them away again. Its end leaves the
strengths and the acting processes as they were, and so does the excursion of an orbit.
-/

namespace BeamOptics

/-! ### Tables -/

namespace Table

variable {α ι : Type}

theorem get?_insertAll (items : List (α × Nat)) (t : Table Nat α) (k : Nat) :
    (items.foldl (fun t item => t.insert item.2 item.1) t).get? k =
      ((items.reverse.find? fun item => item.2 = k).map Prod.fst).or (t.get? k) := by
  induction items generalizing t with
  | nil => rfl
  | cons item rest ih =>
    rw [List.foldl_cons, ih, get?_insert, List.reverse_cons, List.find?_append]
    cases rest.reverse.find? fun item => item.2 = k with
    | some found => rfl
    | none =>
      by_cases hk : item.2 = k <;> simp [hk]

theorem put_eq_append {k : Nat} {entries : List (Nat × α)} (h : ∀ entry ∈ entries, entry.1 ≠ k) (a : α) :
    put k a entries = entries ++ [(k, a)] := by
  induction entries with
  | nil => rfl
  | cons entry rest ih =>
    rw [put, if_neg (h entry List.mem_cons_self), ih fun e he => h e (List.mem_cons_of_mem entry he), List.cons_append]

theorem lt_fresh_of_mem {t : Table Nat α} {entry : Nat × α} (h : entry ∈ t.entries) : entry.1 < t.fresh := by
  obtain ⟨entries⟩ := t
  unfold fresh
  induction entries with
  | nil => exact absurd h List.not_mem_nil
  | cons first rest ih =>
    rw [List.foldr_cons]
    rcases List.mem_cons.mp h with rfl | hrest
    · omega
    · have hlt := ih hrest
      dsimp only at hlt
      omega

/-- Entries under new numbers come last. -/
theorem entries_insertAll (items : List α) (start : Nat) (t : Table Nat α) (h : ∀ entry ∈ t.entries, entry.1 < start) :
    ((items.zipIdx start).foldl (fun t item => t.insert item.2 item.1) t).entries =
      t.entries ++ (items.zipIdx start).map Prod.swap := by
  induction items generalizing start t with
  | nil => simp
  | cons item rest ih =>
    have hput : (t.insert start item).entries = t.entries ++ [(start, item)] :=
      put_eq_append (fun entry hentry => Nat.ne_of_lt (h entry hentry)) item
    have hnext : ∀ entry ∈ (t.insert start item).entries, entry.1 < start + 1 := by
      intro entry hentry
      rw [hput] at hentry
      rcases List.mem_append.mp hentry with hold | hnew
      · have hlt := h entry hold
        omega
      · obtain rfl := List.mem_singleton.mp hnew
        exact Nat.lt_succ_self start
    rw [List.zipIdx_cons, List.foldl_cons, ih (start + 1) (t.insert start item) hnext, hput, List.map_cons,
      List.append_assoc]
    rfl

theorem entries_eraseAll (items : List (α × Nat)) (t : Table Nat ι) :
    (items.foldl (fun t item => t.erase item.2) t).entries =
      t.entries.filter fun entry => entry.1 ∉ items.map Prod.snd := by
  induction items generalizing t with
  | nil => exact (List.filter_eq_self.mpr fun _ _ => rfl).symm
  | cons item rest ih =>
    rw [List.foldl_cons, ih, erase, List.filter_filter]
    congr 1
    funext entry
    by_cases h : entry.1 = item.2 <;> simp [h]

/-- What was put under new numbers can be taken away without a trace. -/
theorem eraseAll_insertAll (items : List α) (t : Table Nat α) :
    (items.zipIdx t.fresh).foldl (fun t item => t.erase item.2)
      ((items.zipIdx t.fresh).foldl (fun t item => t.insert item.2 item.1) t) = t := by
  have hold : ∀ entry ∈ t.entries, entry.1 ∉ (items.zipIdx t.fresh).map Prod.snd := by
    intro entry hentry hnew
    obtain ⟨item, hitem, hnumber⟩ := List.mem_map.mp hnew
    have hlt := lt_fresh_of_mem hentry
    have hle := List.le_snd_of_mem_zipIdx hitem
    omega
  have hentries : (((items.zipIdx t.fresh).foldl (fun t item => t.erase item.2)
      ((items.zipIdx t.fresh).foldl (fun t item => t.insert item.2 item.1) t)).entries) = t.entries := by
    rw [entries_eraseAll, entries_insertAll items t.fresh t fun entry hentry => lt_fresh_of_mem hentry,
      List.filter_append, List.filter_eq_self.mpr fun entry hentry => decide_eq_true (hold entry hentry),
      List.filter_eq_nil_iff.mpr, List.append_nil]
    intro entry hentry hkept
    obtain ⟨item, hitem, rfl⟩ := List.mem_map.mp hentry
    exact absurd (List.mem_map_of_mem hitem) (of_decide_eq_true hkept)
  exact congrArg Table.mk hentries

theorem get?_of_fresh_le {t : Table Nat α} {k : Nat} (h : t.fresh ≤ k) : t.get? k = none := by
  cases hget : t.get? k with
  | none => rfl
  | some a =>
    have hlt := lt_fresh_of_get? hget
    omega

end Table

namespace Station

variable {α : Type}

/-! ### Attaching and detaching -/

theorem run_attachAll (numbers : List Nat) (s : Station α) :
    ∃ s', (attachAll numbers).run s = (.ok (), s') ∧ s'.plant.unlogged = s.plant.unlogged ∧
      s'.tracker = { s.tracker with processes := s.tracker.processes ++ numbers } := by
  induction numbers generalizing s with
  | nil => exact ⟨s, rfl, rfl, by simp⟩
  | cons number rest ih =>
    obtain ⟨s₁, hrun₁, hplant₁, htracker₁⟩ := run_attach number s
    obtain ⟨s₂, hrun₂, hplant₂, htracker₂⟩ := ih s₁
    refine ⟨s₂, ?_, hplant₂.trans hplant₁, ?_⟩
    · rw [attachAll, Action.run_bind_of_ok hrun₁, hrun₂]
    · rw [htracker₂, htracker₁]
      simp

theorem run_detach (number : Nat) (s : Station α) :
    ∃ s', (detach number).run s = (.ok (), s') ∧ s'.plant.unlogged = s.plant.unlogged ∧
      s'.tracker = { s.tracker with processes := s.tracker.processes.erase number } := by
  unfold detach
  rw [Action.run_get_bind]
  by_cases h : s.tracker.processes.contains number
  · simp only [h, if_true]
    exact ⟨_, rfl, Plant.unlogged_note _ _, rfl⟩
  · have herase : s.tracker.processes.erase number = s.tracker.processes :=
      List.erase_of_not_mem (by simpa using h)
    simp only [h, Bool.false_eq_true, if_false]
    exact ⟨_, rfl, Plant.unlogged_note _ _, by rw [herase]⟩

theorem run_detachAll (numbers : List Nat) (s : Station α) :
    ∃ s', (detachAll numbers).run s = (.ok (), s') ∧ s'.plant.unlogged = s.plant.unlogged ∧
      s'.tracker = { s.tracker with processes := numbers.foldl List.erase s.tracker.processes } := by
  induction numbers generalizing s with
  | nil => exact ⟨s, rfl, rfl, rfl⟩
  | cons number rest ih =>
    obtain ⟨s₁, hrun₁, hplant₁, htracker₁⟩ := run_detach number s
    obtain ⟨s₂, hrun₂, hplant₂, htracker₂⟩ := ih s₁
    refine ⟨s₂, ?_, hplant₂.trans hplant₁, ?_⟩
    · rw [detachAll, Action.run_bind_of_ok hrun₁, hrun₂]
    · rw [htracker₂, htracker₁, List.foldl_cons]

theorem eraseAll_append {attached numbers : List Nat} (h : ∀ n ∈ numbers, n ∉ attached) :
    numbers.foldl List.erase (attached ++ numbers) = attached := by
  induction numbers with
  | nil => exact List.append_nil attached
  | cons number rest ih =>
    rw [List.foldl_cons, List.erase_append_right _ (h number List.mem_cons_self), List.erase_cons_head,
      ih fun n hn => h n (List.mem_cons_of_mem number hn)]

/-- A body with attached processes runs where they are attached, and they are detached however it ends. -/
theorem run_attached {β : Type} (numbers : List Nat) (body : Action Fault (Station α) β) (s : Station α) :
    ∃ s', (attached numbers body).run s = ((body.run ((attachAll numbers).run s).2).1, s') ∧
      s'.plant.unlogged = (body.run ((attachAll numbers).run s).2).2.plant.unlogged ∧
      s'.tracker = { (body.run ((attachAll numbers).run s).2).2.tracker with
        processes := numbers.foldl List.erase (body.run ((attachAll numbers).run s).2).2.tracker.processes } := by
  obtain ⟨s₁, hrun₁, -, -⟩ := run_attachAll numbers s
  rw [hrun₁]
  obtain ⟨s₂, hrun₂, hplant₂, htracker₂⟩ := run_detachAll numbers (body.run s₁).2
  refine ⟨s₂, ?_, hplant₂, htracker₂⟩
  rw [attached, Action.run_bind_of_ok hrun₁, Action.run_bind_of_ok (Action.run_outcome body s₁),
    Action.run_bind_of_ok hrun₂, Action.run_lift]

theorem filterMap_eraseAll {β : Type} (f : Nat → Option β) (numbers attached : List Nat)
    (h : ∀ n ∈ numbers, f n = none) : (numbers.foldl List.erase attached).filterMap f = attached.filterMap f := by
  induction numbers generalizing attached with
  | nil => rfl
  | cons number rest ih =>
    have hnumber : f number = none := h number List.mem_cons_self
    have herase : (attached.erase number).filterMap f = attached.filterMap f := by
      induction attached with
      | nil => rfl
      | cons a as iha =>
        by_cases ha : a = number
        · subst ha
          simp [hnumber]
        · rw [List.erase_cons_tail (by simpa using ha), List.filterMap_cons, List.filterMap_cons, iha]
    rw [List.foldl_cons, ih _ fun n hn => h n (List.mem_cons_of_mem _ hn), herase]

end Station

namespace OrbitSearch

variable {α : Type} [Scalar α]

/-! ### Steps of a search -/

theorem keeps_surroundings_turn (c : OrbitConfig α) (momentum : α) (orbit : PhaseVector α) :
    (turn c momentum orbit).Keeps Station.surroundings := by
  refine (Station.keeps_surroundings_trackBunch _).bind fun tracked => ?_
  exact (Action.keeps_lift _).bind fun _ => Action.keeps_pure _

theorem keeps_surroundings_advance (decompose : Decomposer α) (c : OrbitConfig α) (momentum : α) (p : Progress α) :
    (advance decompose c momentum p).Keeps Station.surroundings := by
  refine (keeps_surroundings_turn c momentum p.orbit).bind fun images => ?_
  refine (Action.keeps_lift _).bind fun step => ?_
  refine Action.Keeps.bind ?_ fun _ => Action.keeps_pure _
  exact Station.keeps_surroundings_onPlant fun plant tags => plant.apart_note tags _

theorem keeps_surroundings_iterate (decompose : Decomposer α) (c : OrbitConfig α) (momentum : α) (budget : Nat)
    (p : Progress α) : (iterate decompose c momentum budget p).Keeps Station.surroundings := by
  induction budget generalizing p with
  | zero => exact Action.keeps_pure _
  | succ budget ih =>
    unfold iterate
    split
    · exact (keeps_surroundings_advance decompose c momentum p).bind fun p => ih p
    · exact Action.keeps_pure _

/-! ### The processes of a search -/

omit [Scalar α] in
/-- Extra processes with the numbers they get, which are new to the plant. -/
def numbered (processes : List (BeamProcess α)) (s : Station α) : List (BeamProcess α × Nat) :=
  processes.zipIdx s.plant.processes.fresh

omit [Scalar α] in
def stocked (processes : List (BeamProcess α)) (s : Station α) : Station α :=
  { s with plant :=
    { s.plant with processes :=
      (numbered processes s).foldl (fun t item => t.insert item.2 item.1) s.plant.processes } }

omit [Scalar α] in
/-- Where a search takes place: the extra processes are in the plant and attached. -/
def equipped (processes : List (BeamProcess α)) (s : Station α) : Station α :=
  ((Station.attachAll ((numbered processes s).map Prod.snd)).run (stocked processes s)).2

omit [Scalar α] in
theorem equipped_eq (processes : List (BeamProcess α)) (s : Station α) :
    (equipped processes s).plant.unlogged = (stocked processes s).plant.unlogged ∧
      (equipped processes s).tracker =
        { s.tracker with processes := s.tracker.processes ++ (numbered processes s).map Prod.snd } := by
  obtain ⟨s', hrun, hplant, htracker⟩ :=
    Station.run_attachAll ((numbered processes s).map Prod.snd) (stocked processes s)
  rw [equipped, hrun]
  exact ⟨hplant, htracker⟩

omit [Scalar α] in
theorem regime_equipped (processes : List (BeamProcess α)) (s : Station α) :
    (equipped processes s).regime =
      (s.plant.signals.strengths,
        (stocked processes s).plant.processesOf
          (s.tracker.processes ++ (numbered processes s).map Prod.snd)) := by
  obtain ⟨hplant, htracker⟩ := equipped_eq processes s
  have hfixtures := Plant.fixtures_of_unlogged hplant
  have hstrengths : (equipped processes s).plant.signals.strengths = s.plant.signals.strengths :=
    congrArg Prod.fst hfixtures
  rw [Station.regime, Plant.processesOf_of_fixtures hfixtures, htracker, hstrengths]

omit [Scalar α] in
theorem le_of_mem_numbered {processes : List (BeamProcess α)} {s : Station α} {number : Nat}
    (h : number ∈ (numbered processes s).map Prod.snd) : s.plant.processes.fresh ≤ number := by
  obtain ⟨item, hitem, rfl⟩ := List.mem_map.mp h
  exact List.le_snd_of_mem_zipIdx hitem

omit [Scalar α] in
theorem mem_equipped {processes : List (BeamProcess α)} {s : Station α} {p : BeamProcess α}
    (h : p ∈ (equipped processes s).regime.2) : p ∈ s.regime.2 ∨ p ∈ processes := by
  rw [regime_equipped] at h
  obtain ⟨number, hnumber, hget⟩ := List.mem_filterMap.mp h
  rw [stocked, Table.get?_insertAll] at hget
  cases hfind : (numbered processes s).reverse.find? fun item => item.2 = number with
  | some item =>
    have hitem := List.mem_reverse.mp (List.mem_of_find?_eq_some hfind)
    obtain rfl : item.1 = p := by simpa [hfind] using hget
    exact .inr (List.fst_mem_of_mem_zipIdx hitem)
  | none =>
    rw [hfind, Option.map_none, Option.none_or] at hget
    rcases List.mem_append.mp hnumber with hold | hnew
    · exact .inl (List.mem_filterMap.mpr ⟨number, hold, hget⟩)
    · rw [Table.get?_of_fresh_le (le_of_mem_numbered hnew)] at hget
      exact absurd hget (by simp)

omit [Scalar α] in
theorem get?_stocked {processes : List (BeamProcess α)} {s : Station α} {item : BeamProcess α × Nat}
    (h : item ∈ numbered processes s) : (stocked processes s).plant.processes.get? item.2 = some item.1 := by
  rw [stocked, Table.get?_insertAll]
  cases hfind : (numbered processes s).reverse.find? fun other => other.2 = item.2 with
  | none => exact absurd (List.find?_eq_none.mp hfind item (List.mem_reverse.mpr h)) (by simp)
  | some other =>
    -- of all that was put in, only one thing has this number
    have hother : other ∈ numbered processes s := List.mem_reverse.mp (List.mem_of_find?_eq_some hfind)
    have hnumber : other.2 = item.2 := by simpa using List.find?_some hfind
    have hvalue := (List.mk_mem_zipIdx_iff_le_and_getElem?_sub.mp h).2
    have hotherValue := (List.mk_mem_zipIdx_iff_le_and_getElem?_sub.mp hother).2
    rw [hnumber, hvalue] at hotherValue
    rw [Option.some.inj hotherValue]
    rfl

omit [Scalar α] in
theorem mem_equipped_of_mem {processes : List (BeamProcess α)} {p : BeamProcess α} (h : p ∈ processes) (s : Station α) :
    p ∈ (equipped processes s).regime.2 := by
  rw [← List.zipIdx_map_fst s.plant.processes.fresh processes] at h
  obtain ⟨item, hitem, rfl⟩ := List.mem_map.mp h
  rw [regime_equipped]
  refine List.mem_filterMap.mpr ⟨item.2, ?_, get?_stocked hitem⟩
  exact List.mem_append_right _ (List.mem_map_of_mem hitem)

omit [Scalar α] in
theorem get?_stocked_of_lt {processes : List (BeamProcess α)} {s : Station α} {number : Nat}
    (h : number < s.plant.processes.fresh) :
    (stocked processes s).plant.processes.get? number = s.plant.processes.get? number := by
  have hnone : (numbered processes s).reverse.find? (fun item => item.2 = number) = none := by
    rw [List.find?_eq_none]
    intro item hitem
    have hle := List.le_snd_of_mem_zipIdx (List.mem_reverse.mp hitem)
    have hne : item.2 ≠ number := by omega
    simpa using hne
  rw [stocked, Table.get?_insertAll, hnone]
  rfl

omit [Scalar α] in
/-- Where the plant holds all that is attached, the extra processes act besides those of the tracker. -/
theorem regime_equipped_of_holds (processes : List (BeamProcess α)) {s : Station α}
    (hholds : s.plant.Holds s.tracker.processes) :
    (equipped processes s).regime = (s.regime.1, s.regime.2 ++ processes) := by
  have hold : (stocked processes s).plant.processesOf s.tracker.processes =
      s.plant.processesOf s.tracker.processes := by
    refine List.filterMap_congr fun number hnumber => ?_
    obtain ⟨p, hp⟩ := hholds number hnumber
    exact get?_stocked_of_lt (Table.lt_fresh_of_get? hp)
  have hnew : (stocked processes s).plant.processesOf ((numbered processes s).map Prod.snd) = processes := by
    rw [Plant.processesOf, List.filterMap_map]
    calc (numbered processes s).filterMap ((stocked processes s).plant.processes.get? ∘ Prod.snd)
        = (numbered processes s).filterMap (some ∘ Prod.fst) :=
          List.filterMap_congr fun item hitem => get?_stocked hitem
      _ = processes := by
          rw [List.filterMap_eq_map]
          exact List.zipIdx_map_fst _ _
  have happend (numbers numbers' : List Nat) (p : Plant α) :
      p.processesOf (numbers ++ numbers') = p.processesOf numbers ++ p.processesOf numbers' :=
    List.filterMap_append
  rw [regime_equipped, happend, hold, hnew, Station.regime]

omit [Scalar α] in
def cleared (numbered : List (BeamProcess α × Nat)) (p : Plant α) : Plant α :=
  { p with processes := numbered.foldl (fun t item => t.erase item.2) p.processes }

omit [Scalar α] in
theorem run_withProcesses_eq {β : Type} (processes : List (BeamProcess α)) (body : Action Fault (Station α) β)
    (s : Station α) :
    (withProcesses processes body).run s =
      let ended := (Station.attached ((numbered processes s).map Prod.snd) body).run (stocked processes s)
      (ended.1, { ended.2 with plant := cleared (numbered processes s) ended.2.plant }) := rfl

omit [Scalar α] in
/-- A body with extra processes runs where they are attached, and they are taken away however it ends. -/
theorem run_withProcesses {β : Type} (processes : List (BeamProcess α)) (body : Action Fault (Station α) β)
    (s : Station α) :
    ∃ s', (withProcesses processes body).run s = ((body.run (equipped processes s)).1, s') ∧
      s'.plant.unlogged = (cleared (numbered processes s) (body.run (equipped processes s)).2.plant).unlogged ∧
      s'.tracker = { (body.run (equipped processes s)).2.tracker with
        processes := ((numbered processes s).map Prod.snd).foldl List.erase
          (body.run (equipped processes s)).2.tracker.processes } := by
  obtain ⟨s', hrun, hplant, htracker⟩ :=
    Station.run_attached ((numbered processes s).map Prod.snd) body (stocked processes s)
  refine ⟨{ s' with plant := cleared (numbered processes s) s'.plant }, ?_,
    congrArg (cleared (numbered processes s)) hplant, htracker⟩
  rw [run_withProcesses_eq, hrun, equipped]

omit [Scalar α] in
theorem outcome_withProcesses {β : Type} (processes : List (BeamProcess α)) (body : Action Fault (Station α) β)
    (s : Station α) : ((withProcesses processes body).run s).1 = (body.run (equipped processes s)).1 := by
  obtain ⟨s', hrun, -, -⟩ := run_withProcesses processes body s
  rw [hrun]

omit [Scalar α] in
/-- Behind a body that leaves its surroundings alone, the plant is as before, and of the attachments those that were
made are erased again. -/
theorem leaves_withProcesses {β : Type} (processes : List (BeamProcess α)) {body : Action Fault (Station α) β}
    (hbody : body.Keeps Station.surroundings) (s : Station α) :
    ((withProcesses processes body).run s).2.plant.apart s.tracker.monitorTags =
        s.plant.apart s.tracker.monitorTags ∧
      ((withProcesses processes body).run s).2.tracker = { s.tracker with
        processes := ((numbered processes s).map Prod.snd).foldl List.erase
          (s.tracker.processes ++ (numbered processes s).map Prod.snd) } := by
  obtain ⟨s', hrun, hplant, htracker⟩ := run_withProcesses processes body s
  obtain ⟨hequipped, hattached⟩ := equipped_eq processes s
  have hbodyTracker := Station.tracker_of_surroundings (hbody (equipped processes s))
  have hbodyPlant := Station.apart_of_surroundings (hbody (equipped processes s))
  have htags : (equipped processes s).tracker.monitorTags = s.tracker.monitorTags := by
    rw [hattached]
    rfl
  rw [htags, Plant.apart_of_unlogged hequipped] at hbodyPlant
  rw [hrun]
  constructor
  · calc s'.plant.apart s.tracker.monitorTags
        = (cleared (numbered processes s) (body.run (equipped processes s)).2.plant).apart s.tracker.monitorTags :=
          Plant.apart_of_unlogged hplant _
      _ = (cleared (numbered processes s) (stocked processes s).plant).apart s.tracker.monitorTags :=
          congrArg (cleared (numbered processes s)) hbodyPlant
      _ = s.plant.apart s.tracker.monitorTags :=
          congrArg (fun processes => { s.plant.apart s.tracker.monitorTags with processes })
            (Table.eraseAll_insertAll processes s.plant.processes)
  · rw [htracker, hbodyTracker, hattached]

omit [Scalar α] in
theorem get?_of_mem_numbered {processes : List (BeamProcess α)} {s : Station α} {number : Nat}
    (h : number ∈ (numbered processes s).map Prod.snd) : s.plant.processes.get? number = none :=
  Table.get?_of_fresh_le (le_of_mem_numbered h)

omit [Scalar α] in
theorem keeps_regime_withProcesses {β : Type} (processes : List (BeamProcess α)) {body : Action Fault (Station α) β}
    (hbody : body.Keeps Station.surroundings) : (withProcesses processes body).Keeps Station.regime := by
  intro s
  obtain ⟨hplant, htracker⟩ := leaves_withProcesses processes hbody s
  have hfixtures := Plant.fixtures_of_apart hplant
  have hnone : ∀ number ∈ (numbered processes s).map Prod.snd, s.plant.processes.get? number = none :=
    fun number hnumber => get?_of_mem_numbered hnumber
  have hstrengths : ((withProcesses processes body).run s).2.plant.signals.strengths = s.plant.signals.strengths :=
    congrArg Prod.fst hfixtures
  refine Prod.ext hstrengths ?_
  rw [Station.regime, Plant.processesOf_of_fixtures hfixtures, htracker]
  change List.filterMap _ _ = List.filterMap _ _
  rw [Station.filterMap_eraseAll _ _ _ hnone, List.filterMap_append, List.filterMap_eq_nil_iff.mpr hnone,
    List.append_nil]

omit [Scalar α] in
/-- Where the plant holds all that is attached, a body with extra processes leaves every attachment as it was. -/
theorem surroundings_withProcesses {β : Type} (processes : List (BeamProcess α))
    {body : Action Fault (Station α) β} (hbody : body.Keeps Station.surroundings) {s : Station α}
    (hholds : s.plant.Holds s.tracker.processes) :
    ((withProcesses processes body).run s).2.surroundings = s.surroundings := by
  obtain ⟨hplant, htracker⟩ := leaves_withProcesses processes hbody s
  -- the numbers are new to the plant, and so none of them can have been attached before
  have hnew : ∀ number ∈ (numbered processes s).map Prod.snd, number ∉ s.tracker.processes := by
    intro number hnumber hattached
    obtain ⟨p, hp⟩ := hholds number hattached
    rw [get?_of_mem_numbered hnumber] at hp
    cases hp
  rw [Station.eraseAll_append hnew] at htracker
  exact Station.surroundings_eq htracker hplant

/-! ### Searches and excursions -/

theorem keeps_surroundings_report (c : OrbitConfig α) (p : Progress α) :
    (do
      let result ← Action.lift (conclude c p)
      let note : OrbitNote α :=
        if result.converged then .converged p.steps p.residual else .notConverged p.steps p.residual
      Station.onPlant (Action.update fun plant => plant.note (.orbit note))
      pure result : Action Fault (Station α) (OrbitResult α)).Keeps Station.surroundings := by
  refine (Action.keeps_lift _).bind fun result => ?_
  refine Action.Keeps.bind ?_ fun _ => Action.keeps_pure _
  exact Station.keeps_surroundings_onPlant fun plant tags => plant.apart_note tags _

theorem keeps_regime_find (decompose : Decomposer α) (c : OrbitConfig α) (momentum : α) (r : Range α)
    (guess : PhaseVector α) : (find decompose c momentum r guess).Keeps Station.regime := by
  refine (Station.keeps_setRange Station.steady_regime r).bind fun _ => ?_
  refine (keeps_regime_withProcesses _ (keeps_surroundings_iterate _ _ _ _ _)).bind fun p => ?_
  exact (keeps_surroundings_report c p).of_view fun _ _ h => Station.regime_of_setup (Station.setup_of_surroundings h)

theorem surroundings_find (decompose : Decomposer α) (c : OrbitConfig α) (momentum : α) (r : Range α)
    (guess : PhaseVector α) (s : Station α) :
    ((find decompose c momentum r guess).run s).2.surroundings =
      ((withProcesses (transients c) (iterate decompose c momentum (budget c)
        { orbit := guess, correction := 0 })).run ((Station.setRange r).run s).2).2.surroundings := by
  have hrange : (Station.setRange r).run s = (.ok (), ((Station.setRange r).run s).2) := rfl
  rw [find, Action.run_bind_of_ok hrange, Action.view_bind _ (keeps_surroundings_report c)]

/-- Of the plant a search leaves everything but the log, records of observers, and readings of the monitors in its
range. Its tracker is on that range afterwards, without a stepper. -/
theorem leaves_find (decompose : Decomposer α) (c : OrbitConfig α) (momentum : α) (r : Range α)
    (guess : PhaseVector α) (s : Station α) :
    ((find decompose c momentum r guess).run s).2.plant.apart r.monitorTags = s.plant.apart r.monitorTags ∧
      ∃ processes, ((find decompose c momentum r guess).run s).2.tracker =
        { s.tracker with range := some r, stepper := none, processes } := by
  have hset : ((Station.setRange r).run s).2.plant.unlogged = s.plant.unlogged := s.plant.unlogged_note _
  obtain ⟨hplant, htracker⟩ := leaves_withProcesses (transients c)
    (keeps_surroundings_iterate decompose c momentum (budget c) { orbit := guess, correction := 0 })
    ((Station.setRange r).run s).2
  have hfind := surroundings_find decompose c momentum r guess s
  have hfindTracker := (Station.tracker_of_surroundings hfind).trans htracker
  have hfindPlant := Station.apart_of_surroundings hfind
  rw [htracker] at hfindPlant
  exact ⟨hfindPlant.trans (hplant.trans (Plant.apart_of_unlogged hset _)), _, hfindTracker⟩

theorem tracker_find (decompose : Decomposer α) (c : OrbitConfig α) (momentum : α) (r : Range α)
    (guess : PhaseVector α) {s : Station α} (hholds : s.plant.Holds s.tracker.processes) :
    ((find decompose c momentum r guess).run s).2.tracker =
      { s.tracker with range := some r, stepper := none } := by
  have hset : ((Station.setRange r).run s).2.plant.unlogged = s.plant.unlogged := s.plant.unlogged_note _
  have hsetHolds : ((Station.setRange r).run s).2.plant.Holds s.tracker.processes :=
    hholds.of_fixtures (Plant.fixtures_of_unlogged hset)
  have hfind := surroundings_find decompose c momentum r guess s
  rw [surroundings_withProcesses _ (keeps_surroundings_iterate _ _ _ _ _) hsetHolds] at hfind
  exact Station.tracker_of_surroundings hfind

end OrbitSearch

namespace Rms

variable {α : Type} [Scalar α]

theorem keeps_unread_accumulate (t : Tracker α) {elements : List (Element α)} {tags : List Nat}
    (h : ∀ e ∈ elements, e.isMonitor = true → e.tag ∈ tags) (before total : PhaseVector α) :
    (accumulate t elements before total).Keeps fun ride => ride.plant.unread tags := by
  induction elements generalizing before total with
  | nil => exact Action.keeps_pure _
  | cons e rest ih =>
    refine (Ride.keeps_unread_throughElement t (h e List.mem_cons_self)).bind fun _ => ?_
    refine (Action.keeps_ask _).bind fun b => ?_
    exact (Action.keeps_lift _).bind fun after => ih (fun f hf => h f (List.mem_cons_of_mem e hf)) after _

/-- Of the plant an excursion leaves everything but the log and the readings of monitors. The level of the log is the
one that the settings of the tracker give. -/
theorem leaves_excursion (m : Model α) (config : TrackerConfig) (momentum : α) (start : PhaseVector α)
    (plant : Plant α) :
    ∃ levels, (levels = plant.levels ∨ levels = plant.levels.insert config.name config.level) ∧
      ((excursion m config momentum start).run plant).2.unread (Element.monitorTags m.elements) =
        { plant with levels }.unread (Element.monitorTags m.elements) := by
  unfold excursion
  cases hline : m.beamline with
  | error fault => exact ⟨plant.levels, .inl rfl, rfl⟩
  | ok line =>
    have htags : ∀ e ∈ line.elements, e.isMonitor = true → e.tag ∈ Element.monitorTags m.elements :=
      fun e he => Element.tag_mem_monitorTags (Model.mem_of_mem_beamline hline he)
    by_cases hlength : Scalar.le line.totalLength 0 = true
    · refine ⟨plant.levels, .inl rfl, ?_⟩
      rw [Action.run_bind_of_ok (Action.run_lift _ _), if_pos hlength]
      rfl
    · rw [Action.run_bind_of_ok (Action.run_lift _ _), if_neg hlength]
      cases hbunch : Bunch.ofVector start momentum 1 1 with
      | error fault => exact ⟨plant.levels, .inl rfl, rfl⟩
      | ok b =>
        let station := ((Station.setRange line).run (Station.create config plant)).2
        have hstation : station.plant.unlogged =
            { plant with levels := plant.levels.insert config.name config.level : Plant α }.unlogged :=
          (Plant.unlogged_note _ _).trans (Plant.unlogged_note _ _)
        have hride := keeps_unread_accumulate station.tracker htags start 0 ⟨b, station.plant⟩
        refine ⟨plant.levels.insert config.name config.level, .inr rfl, ?_⟩
        refine Eq.trans ?_ (hride.trans (Plant.unread_of_unlogged hstation _))
        have hreport (result : Except Fault (PhaseVector α)) :
            (do
              let total ← Action.lift result
              pure (total.map fun a => Scalar.sqrt (a / line.totalLength)) :
              Action Fault (Plant α) (PhaseVector α)).Keeps fun p => p.unread (Element.monitorTags m.elements) :=
          (Action.keeps_lift _).bind fun _ => Action.keeps_pure _
        exact hreport _ _

theorem keeps_fixtures_excursion (m : Model α) (config : TrackerConfig) (momentum : α) (start : PhaseVector α) :
    (excursion m config momentum start).Keeps Plant.fixtures := by
  intro plant
  obtain ⟨levels, -, hunread⟩ := leaves_excursion m config momentum start plant
  exact (Plant.fixtures_of_apart (Plant.apart_of_unread hunread) :)

end Rms

end BeamOptics
