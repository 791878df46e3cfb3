import BeamOptics.Proofs.Beam.Particles
import BeamOptics.Proofs.Session.Orbit
import BeamOptics.Proofs.Tracking.Tables
import BeamOptics.Session.Accelerator

/-!
# Bunches of a session

Callers make bunches out of arrays and vectors, copy them, add particles, put other particles in their place, and have
them tracked. A request that is refused leaves the session as it was, and one that is granted makes one bunch or changes
one. So the bunches of a session are tables at any time, unless an array with more than two axes was given.
-/

namespace BeamOptics

/-- A request that makes a bunch or changes the particles of one. -/
inductive BunchRequest where
  | create (as : Option String) (momentum charge : Float) (particles : Option (Nested Float))
  | copies (as : Option String) (vector : Nested Float) (momentum charge : Float) (count : Int)
  | append (on : String) (vector : Nested Float)
  | set (on : String) (index : Int) (vector : Nested Float)
  | copy (on : String) (as : Option String)

namespace Session

def bunchWork : BunchRequest → Work (Load Float)
  | .create as momentum charge particles => createBunch as momentum charge particles
  | .copies as vector momentum charge count => createCopies as vector momentum charge count
  | .append on vector => append on vector
  | .set on index vector => setParticle on index vector
  | .copy on as => copyBunch on as

/-! ### What requests do to a session -/

/-- The session with another bunch, which is kept only if it has a name. -/
def keeping (s : Session) (as : Option String) (l : Load Float) : Session :=
  match as with
  | none => s
  | some name =>
    { s with
      plant := { s.plant with bunches := s.plant.bunches.insert s.plant.bunches.fresh l }
      names := s.names.insert name (.bunch s.plant.bunches.fresh) }

/-- The session with a bunch in place of what it was before. -/
def putting (s : Session) (number : Nat) (l : Load Float) : Session :=
  { s with plant := { s.plant with bunches := s.plant.bunches.insert number l } }

/-- The name stands for a bunch of the session, and the bunch is a table. -/
structure Names (s : Session) (on : String) (number : Nat) (b : Bunch Float) : Prop where
  named : ((bunchNumber on).run s).1 = .ok number
  held : s.plant.bunches.get? number = some (.table b)

end Session

/-- What a request is granted for, the bunch that it gives, and the session behind it. -/
inductive BunchRequest.Does (s : Session) : BunchRequest → Load Float → Session → Prop
  | empty {as : Option String} {momentum charge : Float} (hmomentum : Scalar.le momentum 0 = false) :
    Does s (.create as momentum charge none) (.table ⟨momentum, charge, []⟩)
      (s.keeping as (.table ⟨momentum, charge, []⟩))
  | rows {as : Option String} {momentum charge : Float} {particles : Nested Float} {rows : List (PhaseVector Float)}
    (hmomentum : Scalar.le momentum 0 = false) (hrows : particles.Lists rows) :
    Does s (.create as momentum charge (some particles)) (.table ⟨momentum, charge, rows⟩)
      (s.keeping as (.table ⟨momentum, charge, rows⟩))
  | deep {as : Option String} {momentum charge : Float} {particles : Nested Float}
    (hmomentum : Scalar.le momentum 0 = false) (hdeep : particles.IsDeep) :
    Does s (.create as momentum charge (some particles)) (.stack ⟨momentum, charge, particles.items⟩)
      (s.keeping as (.stack ⟨momentum, charge, particles.items⟩))
  | copies {as : Option String} {v : PhaseVector Float} {momentum charge : Float} {count : Nat}
    (hmomentum : Scalar.le momentum 0 = false) :
    Does s (.copies as (Load.vector v) momentum charge count) (.table ⟨momentum, charge, List.replicate count v⟩)
      (s.keeping as (.table ⟨momentum, charge, List.replicate count v⟩))
  | append {on : String} {v : PhaseVector Float} {number : Nat} {b : Bunch Float} (hon : s.Names on number b) :
    Does s (.append on (Load.vector v)) (.table ⟨b.momentum, b.charge, b.particles ++ [v]⟩)
      (s.putting number (.table ⟨b.momentum, b.charge, b.particles ++ [v]⟩))
  | set {on : String} {index : Int} {v : PhaseVector Float} {number i : Nat} {b : Bunch Float}
    (hon : s.Names on number b) (hindex : position? index b.size = some i) :
    Does s (.set on index (Load.vector v)) (.table ⟨b.momentum, b.charge, b.particles.set i v⟩)
      (s.putting number (.table ⟨b.momentum, b.charge, b.particles.set i v⟩))
  | copy {on : String} {as : Option String} {number : Nat} {b : Bunch Float} (hon : s.Names on number b)
    (hmomentum : Scalar.le b.momentum 0 = false) :
    Does s (.copy on as) (.table b) (s.keeping as (.table b))

theorem Bunch.setParticle_eq_ok_iff {α : Type} {b b' : Bunch α} {index : Int} {v : PhaseVector α} :
    b.setParticle index v = .ok b' ↔
      ∃ i, position? index b.size = some i ∧ b' = ⟨b.momentum, b.charge, b.particles.set i v⟩ := by
  unfold setParticle
  cases position? index b.size <;> simp [eq_comm]

namespace Session

variable {s s' : Session} {l : Load Float} {result : Except Fault (Load Float)}

theorem run_keepBunch (as : Option String) (l : Load Float) (s : Session) :
    (keepBunch as l).run s = (.ok (), s.keeping as l) := by
  cases as <;> rfl

/-- Work that makes a bunch and keeps it under a name, if there is one. -/
def makeBunch (as : Option String) (r : Except Fault (Load Float)) : Work (Load Float) := do
  let l ← Action.lift r
  keepBunch as l
  pure l

theorem run_makeBunch (as : Option String) (r : Except Fault (Load Float)) (s : Session) :
    (makeBunch as r).run s =
      match r with
      | .ok l => (.ok l, s.keeping as l)
      | .error fault => (.error fault, s) := by
  cases r with
  | error fault => rfl
  | ok l => exact Action.run_bind_of_ok (run_keepBunch as l s) _

theorem run_makeBunch_eq_ok_iff {as : Option String} {r : Except Fault (Load Float)} :
    (makeBunch as r).run s = (.ok l, s') ↔ r = .ok l ∧ s' = s.keeping as l := by
  rw [run_makeBunch]
  cases r <;> simp +contextual [eq_comm]

/-- Work that changes a bunch with a vector that is given. -/
def changeBunch (on : String) (vector : Nested Float)
    (change : Load Float → PhaseVector Float → Except Fault (Load Float)) : Work (Load Float) := do
  let number ← bunchNumber on
  let v ← Action.lift (vector.phaseVector Fault.vectorShape)
  let l ← load number
  let l ← Action.lift (change l v)
  putBunch number l
  pure l

theorem keeps_bunchNumber (on : String) : (bunchNumber on).Keeps id := keeps_pick _ on

theorem keeps_load (number : Nat) : (load number).Keeps id := keeps_entry _ number

theorem fst_run_load_eq_ok_iff {number : Nat} :
    ((load number).run s).1 = .ok l ↔ s.plant.bunches.get? number = some l := by
  cases hget : s.plant.bunches.get? number with
  | none =>
    rw [load, run_entry_of_none hget]
    exact iff_of_false nofun nofun
  | some l' =>
    rw [load, run_entry hget]
    simp

section

variable {on : String} {vector : Nested Float} (change : Load Float → PhaseVector Float → Except Fault (Load Float))

theorem run_changeBunch_of_ok {number : Nat} {l₀ : Load Float} {v : PhaseVector Float}
    (hnumber : ((bunchNumber on).run s).1 = .ok number) (hload : s.plant.bunches.get? number = some l₀)
    (hchange : change l₀ v = .ok l) :
    (changeBunch on (Load.vector v) change).run s = (.ok l, s.putting number l) := by
  have hv : (Load.vector v).phaseVector Fault.vectorShape = .ok v := Nested.phaseVector_eq_ok_iff.mpr rfl
  rw [changeBunch, run_bind_of_keeps (keeps_bunchNumber on), hnumber]
  dsimp only
  rw [Action.run_lift_bind_of_ok hv, load, Action.run_bind_of_ok (run_entry hload), Action.run_lift_bind_of_ok hchange]
  rfl

/-- A bunch is changed, or nothing is. -/
theorem changeBunch_cases (h : (changeBunch on vector change).run s = (result, s')) :
    (∃ fault, result = .error fault ∧ s' = s) ∨
      ∃ number v l₀ l, ((bunchNumber on).run s).1 = .ok number ∧ vector = Load.vector v ∧
        s.plant.bunches.get? number = some l₀ ∧ change l₀ v = .ok l ∧ result = .ok l ∧ s' = s.putting number l := by
  rw [changeBunch, run_bind_of_keeps (keeps_bunchNumber on)] at h
  cases hnumber : ((bunchNumber on).run s).1 with
  | error fault =>
    rw [hnumber] at h
    cases h
    exact .inl ⟨fault, rfl, rfl⟩
  | ok number =>
    rw [hnumber] at h
    dsimp only at h
    cases hv : vector.phaseVector Fault.vectorShape with
    | error fault =>
      rw [Action.run_lift_bind_of_error hv] at h
      cases h
      exact .inl ⟨fault, rfl, rfl⟩
    | ok v =>
      rw [Action.run_lift_bind_of_ok hv, run_bind_of_keeps (keeps_load number)] at h
      cases hload : ((load number).run s).1 with
      | error fault =>
        rw [hload] at h
        cases h
        exact .inl ⟨fault, rfl, rfl⟩
      | ok l₀ =>
        rw [hload] at h
        dsimp only at h
        cases hchange : change l₀ v with
        | error fault =>
          rw [Action.run_lift_bind_of_error hchange] at h
          cases h
          exact .inl ⟨fault, rfl, rfl⟩
        | ok l =>
          rw [Action.run_lift_bind_of_ok hchange] at h
          cases h
          exact .inr ⟨number, v, l₀, l, rfl, Nested.phaseVector_eq_ok_iff.mp hv, fst_run_load_eq_ok_iff.mp hload,
            hchange, rfl, rfl⟩

end

/-! ### Requests -/

theorem bunchOf_eq_ok_iff {momentum charge : Float} {particles : Option (Nested Float)} :
    bunchOf momentum charge particles = .ok l ↔ Scalar.le momentum 0 = false ∧
      match particles with
      | none => l = .table ⟨momentum, charge, []⟩
      | some particles => (∃ rows, particles.Lists rows ∧ l = .table ⟨momentum, charge, rows⟩) ∨
          particles.IsDeep ∧ l = .stack ⟨momentum, charge, particles.items⟩ := by
  cases particles with
  | none =>
    rw [bunchOf, map_eq_ok_iff]
    constructor
    · rintro ⟨b, hmake, rfl⟩
      obtain ⟨hmomentum, rfl⟩ := Bunch.make_eq_ok_iff.mp hmake
      exact ⟨hmomentum, rfl⟩
    · rintro ⟨hmomentum, rfl⟩
      exact ⟨_, Bunch.make_eq_ok_iff.mpr ⟨hmomentum, rfl⟩, rfl⟩
  | some particles => exact Load.ofArray_eq_ok_iff

theorem bunchOfCopies_eq_ok_iff {vector : Nested Float} {momentum charge : Float} {copies : Int} :
    bunchOfCopies vector momentum charge copies = .ok l ↔ Scalar.le momentum 0 = false ∧
      ∃ v, ∃ count : Nat, vector = Load.vector v ∧ copies = count ∧
        l = .table ⟨momentum, charge, List.replicate count v⟩ := by
  constructor
  · intro h
    obtain ⟨v, hv, h⟩ := bind_eq_ok_iff.mp h
    by_cases hnegative : copies < 0
    · rw [if_pos hnegative] at h
      cases h
    · rw [if_neg hnegative] at h
      obtain ⟨b, hmake, h⟩ := bind_eq_ok_iff.mp h
      obtain rfl := Except.ok.inj h
      obtain ⟨hmomentum, rfl⟩ := Bunch.make_eq_ok_iff.mp hmake
      exact ⟨hmomentum, v, copies.toNat, Nested.phaseVector_eq_ok_iff.mp hv, by omega, rfl⟩
  · rintro ⟨hmomentum, v, count, rfl, rfl, rfl⟩
    have hv : (Load.vector v).phaseVector Fault.vectorShape = .ok v := Nested.phaseVector_eq_ok_iff.mpr rfl
    have hmake : Bunch.ofVector v momentum charge count = .ok ⟨momentum, charge, List.replicate count v⟩ :=
      Bunch.make_eq_ok_iff.mpr ⟨hmomentum, rfl⟩
    refine bind_eq_ok_iff.mpr ⟨v, hv, ?_⟩
    rw [if_neg (by omega)]
    exact bind_eq_ok_iff.mpr ⟨_, hmake, rfl⟩

/-- A request that is refused leaves the session as it was. -/
theorem bunchWork_refused {q : BunchRequest} {fault : Fault} (h : (bunchWork q).run s = (.error fault, s')) :
    s' = s := by
  have hmake {as : Option String} {r : Except Fault (Load Float)}
      (h : (makeBunch as r).run s = (.error fault, s')) : s' = s := by
    rw [run_makeBunch] at h
    cases r <;> cases h
    rfl
  have hchange {on : String} {vector : Nested Float}
      (change : Load Float → PhaseVector Float → Except Fault (Load Float))
      (h : (changeBunch on vector change).run s = (.error fault, s')) : s' = s := by
    rcases changeBunch_cases change h with ⟨_, -, rfl⟩ | ⟨_, _, _, _, -, -, -, -, hok, -⟩
    · rfl
    · cases hok
  cases q with
  | create as momentum charge particles => exact hmake h
  | copies as vector momentum charge count => exact hmake h
  | append on vector => exact hchange Load.append h
  | set on index vector => exact hchange (fun l v => l.setParticle index v) h
  | copy on as =>
    have hbunch : (bunch on).Keeps id := (keeps_bunchNumber on).bind keeps_load
    change (bunch on >>= fun l => makeBunch as l.copy).run s = _ at h
    rw [run_bind_of_keeps hbunch] at h
    split at h
    · exact hmake h
    · exact (Prod.mk.inj h).2.symm

/-- The name of a bunch leads to the bunch. -/
theorem fst_run_bunch_eq_ok_iff {on : String} : ((bunch on).run s).1 = .ok l ↔
    ∃ number, ((bunchNumber on).run s).1 = .ok number ∧ s.plant.bunches.get? number = some l := by
  rw [bunch, run_bind_of_keeps (keeps_bunchNumber on)]
  cases hnumber : ((bunchNumber on).run s).1 with
  | error fault => simp
  | ok number => simp [fst_run_load_eq_ok_iff]

def AllTables (s : Session) : Prop := ∀ number l, s.plant.bunches.get? number = some l → ∃ b, l = .table b

theorem does_of_granted (hs : s.AllTables) {q : BunchRequest} (h : (bunchWork q).run s = (.ok l, s')) :
    q.Does s l s' := by
  cases q with
  | create as momentum charge particles =>
    obtain ⟨hbunch, rfl⟩ := run_makeBunch_eq_ok_iff.mp h
    obtain ⟨hmomentum, hparticles⟩ := bunchOf_eq_ok_iff.mp hbunch
    cases particles with
    | none =>
      obtain rfl := hparticles
      exact .empty hmomentum
    | some particles =>
      rcases hparticles with ⟨rows, hrows, rfl⟩ | ⟨hdeep, rfl⟩
      · exact .rows hmomentum hrows
      · exact .deep hmomentum hdeep
  | copies as vector momentum charge count =>
    obtain ⟨hbunch, rfl⟩ := run_makeBunch_eq_ok_iff.mp h
    obtain ⟨hmomentum, v, count, rfl, rfl, rfl⟩ := bunchOfCopies_eq_ok_iff.mp hbunch
    exact .copies hmomentum
  | append on vector =>
    rcases changeBunch_cases Load.append h with ⟨fault, herror, -⟩ | ⟨number, v, l₀, l', hcases⟩
    · cases herror
    · obtain ⟨hnumber, rfl, hload, hchange, heq, rfl⟩ := hcases
      obtain ⟨b, rfl⟩ := hs number l₀ hload
      obtain rfl := Except.ok.inj heq
      obtain rfl := Except.ok.inj hchange
      exact .append ⟨hnumber, hload⟩
  | set on index vector =>
    rcases changeBunch_cases (fun l v => l.setParticle index v) h with
      ⟨fault, herror, -⟩ | ⟨number, v, l₀, l', hcases⟩
    · cases herror
    · obtain ⟨hnumber, rfl, hload, hchange, heq, rfl⟩ := hcases
      obtain ⟨b, rfl⟩ := hs number l₀ hload
      obtain rfl := Except.ok.inj heq
      obtain ⟨b', hset, rfl⟩ := map_eq_ok_iff.mp hchange
      obtain ⟨i, hindex, rfl⟩ := Bunch.setParticle_eq_ok_iff.mp hset
      exact .set ⟨hnumber, hload⟩ hindex
  | copy on as =>
    have hbunch : (bunch on).Keeps id := (keeps_bunchNumber on).bind keeps_load
    change (bunch on >>= fun l => makeBunch as l.copy).run s = _ at h
    rw [run_bind_of_keeps hbunch] at h
    split at h
    · rename_i l₀ hl₀
      obtain ⟨number, hnumber, hload⟩ := fst_run_bunch_eq_ok_iff.mp hl₀
      obtain ⟨b, rfl⟩ := hs number l₀ hload
      obtain ⟨hcopy, rfl⟩ := run_makeBunch_eq_ok_iff.mp h
      obtain ⟨b', hmade, rfl⟩ := map_eq_ok_iff.mp hcopy
      obtain ⟨hmomentum, rfl⟩ := Bunch.copy_eq_ok_iff.mp hmade
      exact .copy ⟨hnumber, hload⟩ hmomentum
    · cases h

theorem granted_of_does {q : BunchRequest} (h : q.Does s l s') : (bunchWork q).run s = (.ok l, s') := by
  cases h with
  | empty hmomentum => exact run_makeBunch_eq_ok_iff.mpr ⟨bunchOf_eq_ok_iff.mpr ⟨hmomentum, rfl⟩, rfl⟩
  | rows hmomentum hrows =>
    exact run_makeBunch_eq_ok_iff.mpr ⟨bunchOf_eq_ok_iff.mpr ⟨hmomentum, .inl ⟨_, hrows, rfl⟩⟩, rfl⟩
  | deep hmomentum hdeep =>
    exact run_makeBunch_eq_ok_iff.mpr ⟨bunchOf_eq_ok_iff.mpr ⟨hmomentum, .inr ⟨hdeep, rfl⟩⟩, rfl⟩
  | copies hmomentum =>
    exact run_makeBunch_eq_ok_iff.mpr ⟨bunchOfCopies_eq_ok_iff.mpr ⟨hmomentum, _, _, rfl, rfl, rfl⟩, rfl⟩
  | append hon => exact run_changeBunch_of_ok Load.append hon.named hon.held rfl
  | set hon hindex =>
    refine run_changeBunch_of_ok (fun l v => l.setParticle _ v) hon.named hon.held ?_
    exact map_eq_ok_iff.mpr ⟨_, Bunch.setParticle_eq_ok_iff.mpr ⟨_, hindex, rfl⟩, rfl⟩
  | copy hon hmomentum =>
    rename_i on as number b
    have hbunch : (bunch on).Keeps id := (keeps_bunchNumber on).bind keeps_load
    have hread : ((bunch on).run s).1 = .ok (.table b) := fst_run_bunch_eq_ok_iff.mpr ⟨number, hon.named, hon.held⟩
    change (bunch on >>= fun l => makeBunch as l.copy).run s = _
    rw [run_bind_of_keeps hbunch, hread]
    refine run_makeBunch_eq_ok_iff.mpr ⟨?_, rfl⟩
    exact map_eq_ok_iff.mpr ⟨b, Bunch.copy_eq_ok_iff.mpr ⟨hmomentum, rfl⟩, rfl⟩

end Session

/-- No array with more than two axes is given. -/
def BunchRequest.IsFlat : BunchRequest → Prop
  | create _ _ _ (some particles) => ¬particles.IsDeep
  | _ => True

namespace Session

/-! ### Sessions with tables -/

/-- The bunches of the session are tables that come after others, and so are those that trackers have of their own. -/
structure HoldsTables (count : Nat → Nat → Prop) (before : Table Nat (Load Float)) (s : Session) : Prop where
  bunches : TablesAfter count before s.plant.bunches
  initials : ∀ number t, s.trackers.get? number = some t → t.StartsFromTable

variable {s s' : Session} {l : Load Float} {count : Nat → Nat → Prop} {before : Table Nat (Load Float)}

theorem HoldsTables.keeping (h : s.HoldsTables count before) (as : Option String) (b : Bunch Float) :
    (s.keeping as (.table b)).HoldsTables count before := by
  cases as with
  | none => exact h
  | some name => exact ⟨h.bunches.made s.plant.bunches.get?_fresh b, h.initials⟩

theorem HoldsTables.putting (h : s.HoldsTables count before) {number : Nat} {b b' : Bunch Float}
    (hb : s.plant.bunches.get? number = some (.table b)) (hcharge : b'.charge = b.charge)
    (hsize : ∀ n, count n b.size → count n b'.size) : (s.putting number (.table b')).HoldsTables count before :=
  ⟨h.bunches.changed hb hcharge hsize, h.initials⟩

/-- Requests without deep arrays leave tables, and no particles get lost. -/
theorem HoldsTables.does (h : s.HoldsTables (· ≤ ·) before) {q : BunchRequest} (hflat : q.IsFlat)
    (hdoes : q.Does s l s') : s'.HoldsTables (· ≤ ·) before := by
  cases hdoes with
  | empty => exact h.keeping _ _
  | rows => exact h.keeping _ _
  | deep _ hdeep => exact absurd hdeep hflat
  | copies => exact h.keeping _ _
  | append hon =>
    refine h.putting hon.held rfl fun n hn => ?_
    simp only [Bunch.size, List.length_append, List.length_singleton] at hn ⊢
    omega
  | set hon =>
    refine h.putting hon.held rfl fun n hn => ?_
    simpa only [Bunch.size, List.length_set] using hn
  | copy => exact h.keeping _ _

theorem HoldsTables.allTables (h : s.HoldsTables count before) : s.AllTables := h.bunches.table

theorem upholds_bunchWork {q : BunchRequest} (hflat : q.IsFlat) :
    (bunchWork q).Upholds (HoldsTables (· ≤ ·) before) := by
  intro s hs
  rcases hrun : (bunchWork q).run s with ⟨fault | l, s'⟩
  · obtain rfl := bunchWork_refused hrun
    exact hs
  · exact hs.does hflat (does_of_granted hs.allTables hrun)

/-! ### Tracking -/

section

variable {β : Type}

/-- What decides which bunches a session has, and which ones its trackers have of their own. -/
def stock (s : Session) : Table Nat (Load Float) × (Nat → Option (InitialBunch Float)) :=
  (s.plant.bunches, fun number => (s.trackers.get? number).bind Tracker.initial)

theorem upholds_of_keeps_stock {a : Work β} (ha : a.Keeps stock) : a.Upholds (HoldsTables count before) := by
  refine ha.upholds fun s s' hstock hs => ?_
  obtain ⟨hbunches, hinitials⟩ := Prod.mk.inj hstock
  refine ⟨?_, fun number t ht l hl => ?_⟩
  · rw [hbunches]
    exact hs.bunches
  · have hinitial := congrFun hinitials number
    simp only [ht, Option.bind_some, hl] at hinitial
    obtain ⟨t', ht', hl'⟩ := Option.bind_eq_some_iff.mp hinitial.symm
    exact hs.initials number t' ht' l hl'

/-- A new tracker has no bunch of its own. -/
theorem keeps_stock_addTracker (config : TrackerConfig) : (addTracker config).Keeps stock := by
  intro s
  refine Prod.ext (Plant.bunches_note _ _) (funext fun number => ?_)
  change ((s.trackers.insert s.trackers.fresh (Station.create config s.plant).tracker).get? number).bind
    Tracker.initial = (s.trackers.get? number).bind Tracker.initial
  rw [Table.get?_insert]
  split
  · rename_i hfresh
    rw [← hfresh, Table.get?_fresh]
    rfl
  · rfl

theorem keeps_stock_bindIf (as : Option String) (h : Handle) : (bindIf as h).Keeps stock := by
  cases as <;> exact fun _ => rfl

theorem keeps_stock_createTracker (as : Option String) (d : Option Datum) : (createTracker as d).Keeps stock := by
  have hadd (config : TrackerConfig) : (do
      let number ← addTracker config
      bindIf as (.tracker number)
      pure config : Work TrackerConfig).Keeps stock := by
    refine (keeps_stock_addTracker config).bind fun number => ?_
    exact (keeps_stock_bindIf as _).bind fun _ => Action.keeps_pure _
  cases d with
  | none => exact (Action.keeps_pure _).bind hadd
  | some d => exact (Action.keeps_lift _).bind hadd

/-- Work at one tracker. -/
theorem HoldsTables.after_tracker (h : s.HoldsTables count before) {number : Nat} {t : Tracker Float}
    (hbunches : TablesAfter count before s'.plant.bunches) (ht : t.StartsFromTable)
    (htrackers : s'.trackers = s.trackers.insert number t := by rfl) : s'.HoldsTables count before := by
  refine ⟨hbunches, fun number' t' ht' => ?_⟩
  rw [htrackers, Table.get?_insert] at ht'
  split at ht'
  · obtain rfl := Option.some.inj ht'
    exact ht
  · exact h.initials number' t' ht'

theorem upholds_onStation_holds {number : Nat} {a : Action Fault (Station Float) β}
    (ha : a.Upholds (Station.Holds count before)) : (onStation number a).Upholds (HoldsTables count before) := by
  intro s hs
  cases hnumber : s.trackers.get? number with
  | none =>
    rw [onStation, Action.run_bind_of_error (run_entry_of_none hnumber)]
    exact hs
  | some t =>
    rw [run_onStation hnumber]
    have hafter := ha ⟨t, s.plant⟩ ⟨hs.bunches, hs.initials number t hnumber⟩
    exact hs.after_tracker hafter.bunches hafter.initial

theorem upholds_onRig_holds {number : Nat} {a : Action Fault (Rig Float) β}
    (ha : a.Upholds (Rig.Holds count before)) : (onRig number a).Upholds (HoldsTables count before) := by
  intro s hs
  cases hnumber : s.assemblies.get? number with
  | none =>
    rw [onRig, Action.run_bind_of_error (run_entry_of_none hnumber)]
    exact hs
  | some assembly =>
    cases htracker : s.trackers.get? assembly.tracker with
    | none =>
      rw [onRig, Action.run_bind_of_ok (run_entry hnumber), Action.run_bind_of_error (run_entry_of_none htracker)]
      exact hs
    | some t =>
      rw [onRig, Action.run_bind_of_ok (run_entry hnumber), Action.run_bind_of_ok (run_entry htracker)]
      have hafter := ha ⟨assembly.accelerator, t, s.plant⟩ ⟨hs.bunches, hs.initials _ t htracker⟩
      exact hs.after_tracker hafter.bunches hafter.initial

theorem upholds_keepBunch (as : Option String) (b : Bunch Float) :
    (keepBunch as (.table b)).Upholds (HoldsTables count before) := by
  intro s hs
  rw [run_keepBunch]
  exact hs.keeping as b

theorem upholds_keepTable {a : Work (Bunch Float)} (ha : a.Upholds (HoldsTables count before)) (as : Option String)
    (f : Bunch Float → β) : (do
      let b ← a
      keepBunch as (.table b)
      pure (f b)).Upholds (HoldsTables count before) :=
  ha.bind fun b => (upholds_keepBunch as b).bind fun _ => Action.upholds_pure _

theorem upholds_setInitialBunch_holds (on bunch : String) (own : Bool) :
    (setInitialBunch on bunch own).Upholds (HoldsTables count before) := by
  refine (keeps_pick _ on).upholds_of_id.bind fun number => ?_
  refine (keeps_bunchNumber bunch).upholds_of_id.bind fun bunchNumber => ?_
  cases own with
  | true =>
    refine upholds_onStation_holds (Station.upholds_setInitial fun l hl => ?_)
    cases hl
  | false =>
    intro s hs
    change ((load bunchNumber >>= _).run s).2.HoldsTables count before
    rw [run_bind_of_keeps (keeps_load bunchNumber)]
    split
    · rename_i l hl
      obtain ⟨b, rfl⟩ := hs.allTables bunchNumber l (fst_run_load_eq_ok_iff.mp hl)
      refine (Action.upholds_lift_bind fun l hcopy => ?_) s hs
      obtain ⟨b', -, rfl⟩ := map_eq_ok_iff.mp hcopy
      refine upholds_onStation_holds (Station.upholds_setInitial fun l hl => ⟨b', ?_⟩)
      exact (InitialBunch.own.inj hl).symm
    · exact hs

theorem upholds_createBeamBunch (on beam : String) (as : Option String) :
    (createBeamBunch on beam as).Upholds (HoldsTables count before) := by
  refine (keeps_pick _ on).upholds_of_id.bind fun number => ?_
  refine (keeps_pick _ beam).upholds_of_id.bind fun beamNumber => ?_
  refine (keeps_entry _ _).upholds_of_id.bind fun beam => ?_
  exact upholds_keepTable (Action.upholds_lift _) as _

theorem upholds_trackCopy_holds (on : String) (as : Option String) :
    (trackCopy on as).Upholds (HoldsTables count before) := by
  refine (keeps_pick _ on).upholds_of_id.bind fun number => ?_
  exact upholds_keepTable (upholds_onStation_holds (Station.upholds_of_keeps_stock Station.keeps_stock_trackCopy)) as _

theorem upholds_track_holds (on bunch : String) : (track on bunch).Upholds (HoldsTables count before) := by
  refine (keeps_pick _ on).upholds_of_id.bind fun number => ?_
  refine (keeps_bunchNumber bunch).upholds_of_id.bind fun bunchNumber => ?_
  refine (upholds_onStation_holds (Station.upholds_rideShared_track bunchNumber)).outcome.bind fun outcome => ?_
  exact (keeps_load bunchNumber).upholds_of_id.bind fun after => Action.upholds_pure _

theorem upholds_trackElement_holds (on bunch element : String) :
    (trackElement on bunch element).Upholds (HoldsTables count before) := by
  refine (keeps_pick _ on).upholds_of_id.bind fun number => ?_
  refine (keeps_bunchNumber bunch).upholds_of_id.bind fun bunchNumber => ?_
  refine (keeps_pick _ element).upholds_of_id.bind fun e => ?_
  refine (upholds_onStation_holds (Station.upholds_rideShared_throughElement bunchNumber e)).bind fun _ => ?_
  exact (keeps_load bunchNumber).upholds_of_id

theorem upholds_step_holds (on : String) : (step on).Upholds (HoldsTables count before) :=
  (keeps_pick _ on).upholds_of_id.bind fun _ => upholds_onStation_holds Station.upholds_step_holds

theorem upholds_applyProcess (on bunch element : String) (ds : Float) :
    (applyProcess on bunch element ds).Upholds (HoldsTables count before) := by
  refine (keeps_pick _ on).upholds_of_id.bind fun number => ?_
  refine (keeps_entry _ _).upholds_of_id.bind fun p => ?_
  refine (keeps_bunchNumber bunch).upholds_of_id.bind fun bunchNumber => ?_
  refine (keeps_pick _ element).upholds_of_id.bind fun e => ?_
  intro s hs
  rw [run_bind_of_keeps (keeps_load bunchNumber)]
  split
  · rename_i l hl
    have hload := fst_run_load_eq_ok_iff.mp hl
    obtain ⟨b, rfl⟩ := hs.allTables bunchNumber l hload
    have hbunch : (Load.table b).bunch = .ok b := rfl
    rw [Action.run_lift_bind_of_ok hbunch]
    cases hact : p.act e ds b with
    | error fault =>
      -- A process that fails leaves notes and no bunch.
      have hnote : (onPlant (Action.update fun plant => plant.noteAll fault.notes)).Keeps stock :=
        fun s => Prod.ext (congrArg Plant.bunches (Plant.unlogged_noteAll s.plant fault.notes) :) rfl
      exact upholds_of_keeps_stock (hnote.bind fun _ => Action.keeps_throw _) s hs
    | ok b' =>
      obtain ⟨hcharge, hsize⟩ := Prod.mk.inj (Bunch.steady_outline.act hact)
      refine hs.putting hload hcharge fun n hn => ?_
      rwa [hsize]
  · exact hs

theorem upholds_trackState_holds (on : String) (state : Datum) (choice : SegmentChoice) (as : Option String) :
    (trackState on state choice as).Upholds (HoldsTables count before) := by
  have htrack (number : Nat) : (trackStateOf number state choice as).Upholds (HoldsTables count before) := by
    refine (keeps_segmentArgument choice).upholds_of_id.bind fun argument => ?_
    refine (keeps_entry _ _).upholds_of_id.bind fun a => ?_
    refine (keeps_entry _ _).upholds_of_id.bind fun m => ?_
    exact upholds_keepTable (upholds_onRig_holds (Rig.upholds_trackState_holds m state argument)) as _
  refine (keeps_pick _ on).upholds_of_id.bind fun number => ?_
  refine (htrack number).outcome.bind fun outcome => ?_
  refine (keeps_entry _ _).upholds_of_id.bind fun a => ?_
  exact (keeps_entry _ _).upholds_of_id.bind fun t => Action.upholds_pure _

theorem upholds_trackNewBunch_holds (on : String) (as : Option String) :
    (trackNewBunch on as).Upholds (HoldsTables count before) := by
  refine (keeps_pick _ on).upholds_of_id.bind fun number => ?_
  refine (keeps_entry _ _).upholds_of_id.bind fun a => ?_
  refine (keeps_entry _ _).upholds_of_id.bind fun m => ?_
  refine (keeps_entry _ _).upholds_of_id.bind fun beam => ?_
  exact upholds_keepTable (upholds_onRig_holds (Rig.upholds_trackNewBunch_holds m beam)) as _

/-- A search tracks bunches of its own. -/
theorem upholds_findOrbit_holds (on : String) (guess : Nested Float) (choice : SegmentChoice) (as : Option String)
    (decompose : Decomposer Float) :
    (findOrbit on guess choice as decompose).Upholds (HoldsTables count before) := by
  refine (keeps_solver on).upholds_of_id.bind fun solver => ?_
  refine (keeps_segmentArgument choice).upholds_of_id.bind fun argument => ?_
  refine (Action.upholds_lift _).bind fun guess => ?_
  refine (keeps_entry _ _).upholds_of_id.bind fun m => ?_
  refine (Action.upholds_lift _).bind fun r => ?_
  refine (keeps_entry _ _).upholds_of_id.bind fun c => ?_
  have hfind : (OrbitSearch.find decompose c solver.momentum r guess).Keeps Station.stock := by
    intro s
    obtain ⟨hplant, processes, htracker⟩ := OrbitSearch.leaves_find decompose c solver.momentum r guess s
    refine Prod.ext (congrArg Plant.bunches hplant :) ?_
    rw [Station.stock, htracker]
    rfl
  refine (upholds_onStation_holds (Station.upholds_of_keeps_stock hfind)).bind fun result => ?_
  exact upholds_of_keeps_stock ((keeps_stock_bindIf as _).bind fun _ => Action.keeps_pure _)

end

/-! ### Programs -/

/-- Programs that track bunches, with any other work in between that leaves bunches alone. -/
inductive Tracking : {β : Type} → Work β → Prop
  | setInitialBunch (on bunch : String) (own : Bool) : Tracking (setInitialBunch on bunch own)
  | createBeamBunch (on beam : String) (as : Option String) : Tracking (createBeamBunch on beam as)
  | trackCopy (on : String) (as : Option String) : Tracking (trackCopy on as)
  | track (on bunch : String) : Tracking (track on bunch)
  | trackElement (on bunch element : String) : Tracking (trackElement on bunch element)
  | step (on : String) : Tracking (step on)
  | applyProcess (on bunch element : String) (ds : Float) : Tracking (applyProcess on bunch element ds)
  | trackState (on : String) (state : Datum) (choice : SegmentChoice) (as : Option String) :
    Tracking (trackState on state choice as)
  | trackNewBunch (on : String) (as : Option String) : Tracking (trackNewBunch on as)
  | findOrbit (on : String) (guess : Nested Float) (choice : SegmentChoice) (as : Option String)
    (decompose : Decomposer Float) : Tracking (findOrbit on guess choice as decompose)
  | beside {β : Type} {a : Work β} (ha : a.Keeps stock) : Tracking a
  | outcome {β : Type} {a : Work β} (ha : Tracking a) : Tracking (a.outcome : Work (Except Fault β))
  | bind {β γ : Type} {a : Work β} {f : β → Work γ} (ha : Tracking a) (hf : ∀ b, Tracking (f b)) : Tracking (a >>= f)

theorem Tracking.upholds {β : Type} {program : Work β} (h : Tracking program) :
    program.Upholds (HoldsTables count before) := by
  induction h with
  | setInitialBunch on bunch own => exact upholds_setInitialBunch_holds on bunch own
  | createBeamBunch on beam as => exact upholds_createBeamBunch on beam as
  | trackCopy on as => exact upholds_trackCopy_holds on as
  | track on bunch => exact upholds_track_holds on bunch
  | trackElement on bunch element => exact upholds_trackElement_holds on bunch element
  | step on => exact upholds_step_holds on
  | applyProcess on bunch element ds => exact upholds_applyProcess on bunch element ds
  | trackState on state choice as => exact upholds_trackState_holds on state choice as
  | trackNewBunch on as => exact upholds_trackNewBunch_holds on as
  | findOrbit on guess choice as decompose => exact upholds_findOrbit_holds on guess choice as decompose
  | beside ha => exact upholds_of_keeps_stock ha
  | outcome _ ih => exact ih.outcome
  | bind _ _ iha ihf => exact iha.bind ihf

/-- Programs of requests without deep arrays, and of tracking. -/
inductive Handling : {β : Type} → Work β → Prop
  | request (q : BunchRequest) (hflat : q.IsFlat) : Handling (bunchWork q)
  | tracking {β : Type} {a : Work β} (ha : Tracking a) : Handling a
  | outcome {β : Type} {a : Work β} (ha : Handling a) : Handling (a.outcome : Work (Except Fault β))
  | bind {β γ : Type} {a : Work β} {f : β → Work γ} (ha : Handling a) (hf : ∀ b, Handling (f b)) : Handling (a >>= f)

theorem Handling.upholds {β : Type} {program : Work β} (h : Handling program) :
    program.Upholds (HoldsTables (· ≤ ·) before) := by
  induction h with
  | request q hflat => exact upholds_bunchWork hflat
  | tracking ha => exact ha.upholds
  | outcome _ ih => exact ih.outcome
  | bind _ _ iha ihf => exact iha.bind ihf

/-- A session after any such program. -/
inductive Handled : Session → Prop
  | after {β : Type} {program : Work β} (h : Handling program) : Handled (program.run {}).2

theorem holdsTables_start : HoldsTables count .empty {} where
  bunches := ⟨nofun, nofun⟩
  initials := nofun

theorem Handled.holdsTables (h : Handled s) (count : Nat → Nat → Prop) (hcount : ∀ n, count n n) :
    s.HoldsTables count s.plant.bunches := by
  obtain ⟨hprogram⟩ := h
  have hafter := hprogram.upholds {} holdsTables_start
  exact ⟨.refl hcount hafter.bunches.table, hafter.initials⟩

/-- In every session that programs without deep arrays lead to, bunches are tables. A request is granted just where it
does what it is for, which is to make a bunch out of the particles that are listed, of equal particles or of those of
another one, to add a particle at the end, or to put one into a row; otherwise the session is what it was. Programs
that track leave every bunch a table with its charge and with as many rows, whether they succeed or fail, and with
requests in between no rows get lost. Only an array with more than two axes makes a bunch that is no table. -/
theorem bunches_stay_tables (hs : Handled s) :
    (∀ number l, s.plant.bunches.get? number = some l → ∃ b, l = .table b) ∧
    (∀ q l s', (bunchWork q).run s = (.ok l, s') ↔ q.Does s l s') ∧
    (∀ q fault s', (bunchWork q).run s = (.error fault, s') → s' = s) ∧
    (∀ {β : Type} (program : Work β), Tracking program →
      ∀ number b, s.plant.bunches.get? number = some (.table b) →
        ∃ b', (program.run s).2.plant.bunches.get? number = some (.table b') ∧ b'.charge = b.charge ∧
          b'.size = b.size) ∧
    ∀ {β : Type} (program : Work β), Handling program →
      (program.run s).2.AllTables ∧
        ∀ number b, s.plant.bunches.get? number = some (.table b) →
          ∃ b', (program.run s).2.plant.bunches.get? number = some (.table b') ∧ b'.charge = b.charge ∧
            b.size ≤ b'.size := by
  have hsame := hs.holdsTables (· = ·) fun _ => rfl
  have htables : s.AllTables := hsame.allTables
  refine ⟨htables, fun q l s' => ⟨does_of_granted htables, granted_of_does⟩,
    fun q fault s' => bunchWork_refused, ?_, ?_⟩
  · intro β program hprogram number b hb
    obtain ⟨b', hb', hcharge, hsize⟩ := (hprogram.upholds s hsame).bunches.endures number b hb
    exact ⟨b', hb', hcharge, hsize.symm⟩
  · intro β program hprogram
    have hafter := hprogram.upholds s (hs.holdsTables (· ≤ ·) Nat.le_refl)
    exact ⟨hafter.allTables, hafter.bunches.endures⟩

end Session

namespace GrownBunch

open Session

def drift : Element Float := ⟨0, "D", "Drift", 1, .drift⟩

def first : PhaseVector Float := ⟨1, 0.5, 0, 0, 0, 0⟩

def second : PhaseVector Float := ⟨0, 0, 1, 0, 0, 0⟩

/-- A bunch of a single particle. -/
def single : Session := ((bunchWork (.create (some "bunch") 2 1 (some (Load.vector first)))).run {}).2

/-- The bunch passes a drift. -/
def passing : Work (Load Float) := do
  bind "drift" (.element drift)
  let _ ← createTracker (some "tracker") none
  trackElement "tracker" "bunch" "drift"

theorem handled_single : Handled single := .after (.request _ fun hdeep => by
  obtain ⟨-, n, k, inner, hshape⟩ := hdeep
  cases hshape)

theorem tracking_passing : Tracking passing := by
  refine .bind (.beside fun _ => rfl) fun _ => ?_
  exact .bind (.beside (keeps_stock_createTracker _ _)) fun _ => .trackElement _ _ _

theorem names_single : single.Names "bunch" 0 ⟨2, 1, [first]⟩ := ⟨by rfl, by rfl⟩

/-- A second particle comes behind the first one, a number is no particle, and the drift takes the bunch as it is. -/
theorem bunches_stay_tables_single :
    Handled single ∧
      (∃ s', (bunchWork (.append "bunch" (Load.vector second))).run single =
        (.ok (.table ⟨2, 1, [first, second]⟩), s')) ∧
      (∃ fault, (bunchWork (.append "bunch" (.leaf 1))).run single = (.error fault, single)) ∧
      (passing.run single).1.toOption.isSome = true ∧
      ∃ b, (passing.run single).2.plant.bunches.get? 0 = some (.table b) ∧ b.size = 1 := by
  obtain ⟨-, hgranted, hrefused, htracked, -⟩ := bunches_stay_tables handled_single
  refine ⟨handled_single, ⟨_, (hgranted _ _ _).mpr (.append names_single)⟩, ?_, by decide +kernel, ?_⟩
  · have hrun : ((bunchWork (.append "bunch" (.leaf 1))).run single).1 = .error (.vectorShape []) := by rfl
    have hsame := hrefused _ _ _ (Action.run_eq_of_fst hrun)
    exact ⟨_, (Action.run_eq_of_fst hrun).trans (congrArg _ hsame)⟩
  · obtain ⟨b, hb, -, hsize⟩ := htracked passing tracking_passing 0 _ names_single.held
    exact ⟨b, hb, hsize⟩

/-- Six pairs of zeros. -/
def pairs : Nested Float := .node [.node (List.replicate 6 (.node [.leaf 0, .leaf 0]))]

/-- An array with three axes is let through: it makes a bunch whose only row is six pairs, and no vector. -/
theorem pairs_make_a_stack :
    pairs.shape? = some [1, 6, 2] ∧ Load.ofArray 1 1 pairs = .ok (.stack ⟨1, 1, pairs.items⟩) ∧
      (∀ b, Load.ofArray 1 1 pairs ≠ .ok (.table b)) ∧
      ((bunchWork (.create (some "bunch") 1 1 (some pairs))).run {}).1 = .ok (.stack ⟨1, 1, pairs.items⟩) := by
  have hmomentum : Scalar.le (1 : Float) 0 = false := by decide +kernel
  have hdeep : pairs.IsDeep := ⟨by simp [pairs, Nested.leaves, Nested.leavesList], 1, 2, [], rfl⟩
  have hstack : Load.ofArray 1 1 pairs = .ok (.stack ⟨1, 1, pairs.items⟩) := Load.ofArray_of_deep hmomentum hdeep
  refine ⟨rfl, hstack, fun b hb => ?_, ?_⟩
  · rw [hstack] at hb
    cases hb
  · exact congrArg Prod.fst (granted_of_does (.deep hmomentum hdeep))

end GrownBunch

end BeamOptics
