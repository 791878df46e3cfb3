import BeamOptics.Proofs.Session.Basic
import BeamOptics.Proofs.Tracking.StepCounts
import BeamOptics.Session.Tracking

/-!
# Processes of a session

Callers make processes and change their settings. A request that is refused leaves the session as it was, and one that
is granted puts one process into the plant. So the radiation processes of a session go by a count of steps or by the
length of a step at any time, unless a length was set that is no number.
-/

namespace BeamOptics

/-- A request that makes a process or changes one. -/
inductive ProcessRequest where
  | create (as : Option String) (draft : ProcessDraft)
  | steps (on : String) (count : Datum)
  | stepSize (on : String) (size : Float)
  | scale (on : String) (scale : Float)

namespace ProcessRequest

/-- The length of a step is set to a number only; lengths that a process is made with can be any. -/
def IsNumeric : ProcessRequest → Prop
  | stepSize _ size => Scalar.isNumber size = true
  | _ => True

/-- The process is what the request makes if it is granted. -/
def Gives : ProcessRequest → BeamProcess Float → Prop
  | create _ draft, p => draft.build = .ok p
  | steps _ count, p => ∃ r r' : Radiation Float, r.setSteps count = .ok r' ∧ p = .radiation r'
  | stepSize _ size, p => ∃ r r' : Radiation Float, r.setMaxStep size = .ok r' ∧ p = .radiation r'
  | scale _ a, p => p = .ringDelta a

theorem Gives.hasRule {q : ProcessRequest} {p : BeamProcess Float} (h : q.Gives p) (hq : q.IsNumeric) : p.HasRule := by
  cases q with
  | create as draft =>
    cases draft with
    | radiation count size rereference =>
      obtain ⟨r, hr, rfl⟩ := map_eq_ok_iff.mp (h : (Radiation.build count size rereference).map .radiation = .ok p)
      exact Radiation.hasRule_of_build hr
    | ringDelta scale =>
      obtain rfl := Except.ok.inj h
      trivial
    | finiteness detailed =>
      obtain rfl := Except.ok.inj h
      trivial
  | steps on count =>
    obtain ⟨r, r', hset, rfl⟩ := h
    exact (Radiation.isCounted_of_setSteps hset).hasRule
  | stepSize on size =>
    obtain ⟨r, r', hset, rfl⟩ := h
    exact (Radiation.isLimited_of_setMaxStep hq hset).hasRule
  | scale on a =>
    obtain rfl := h
    trivial

end ProcessRequest

namespace Session

def processWork : ProcessRequest → Work (BeamProcess Float)
  | .create as draft => createProcess as draft
  | .steps on count => setRadiationSteps on count
  | .stepSize on size => setRadiationStepSize on size
  | .scale on a => setScale on a

/-! ### What requests do to the processes -/

/-- Work that puts the process it gives into the plant if it succeeds, and leaves everything if it fails. -/
def PutsProcess (gives : BeamProcess Float → Prop) (a : Work (BeamProcess Float)) : Prop :=
  ∀ s, match (a.run s).1 with
    | .ok p => gives p ∧ ∃ number, (a.run s).2.plant.processes = s.plant.processes.insert number p
    | .error _ => (a.run s).2 = s

namespace PutsProcess

variable {β : Type} {gives : BeamProcess Float → Prop}

theorem lift_bind {r : Except Fault β} {f : β → Work (BeamProcess Float)}
    (hf : ∀ b, r = .ok b → PutsProcess gives (f b)) : PutsProcess gives (Action.lift r >>= f) := by
  cases r with
  | error fault => exact fun s => rfl
  | ok b => exact hf b rfl

/-- What only looks something up can come before. -/
theorem of_keeps {a : Work β} {f : β → Work (BeamProcess Float)} (ha : a.Keeps id)
    (hf : ∀ b, PutsProcess gives (f b)) : PutsProcess gives (a >>= f) := by
  intro s
  rw [run_bind_of_keeps ha]
  cases (a.run s).1 with
  | error fault => rfl
  | ok b => exact hf b s

theorem put {number : Nat} {p : BeamProcess Float} (hp : gives p) (as : Option String) :
    PutsProcess gives (do
      putProcess number p
      bindIf as (.process number)
      pure p) := by
  intro s
  cases as <;> exact ⟨hp, number, rfl⟩

end PutsProcess

theorem putsProcess_createProcess (as : Option String) (draft : ProcessDraft) :
    PutsProcess (fun p => draft.build = .ok p) (createProcess as draft) := by
  refine .lift_bind fun p hp => ?_
  exact .of_keeps (Action.keeps_ask _) fun number => .put hp as

theorem putsProcess_changeProcess {gives : BeamProcess Float → Prop} (on : String)
    {change : BeamProcess Float → Except Fault (BeamProcess Float)} (h : ∀ p p', change p = .ok p' → gives p') :
    PutsProcess gives (changeProcess on change) := by
  refine .of_keeps (keeps_pick _ on) fun number => ?_
  refine .of_keeps (keeps_entry _ number) fun p => ?_
  exact .lift_bind fun p' hp' => .put (h p p' hp') none

/-- A setting of radiation processes is refused by all others. -/
theorem putsProcess_changeRadiation (on : String) {change : BeamProcess Float → Except Fault (BeamProcess Float)}
    {setting : Radiation Float → Except Fault (Radiation Float)} {fault : Fault}
    (hradiation : ∀ r, change (.radiation r) = (setting r).map .radiation)
    (hringDelta : ∀ a, change (.ringDelta a) = .error fault)
    (hfiniteness : ∀ detailed, change (.finiteness detailed) = .error fault) :
    PutsProcess (fun p => ∃ r r', setting r = .ok r' ∧ p = .radiation r') (changeProcess on change) := by
  refine putsProcess_changeProcess on fun p p' h => ?_
  cases p with
  | radiation r =>
    obtain ⟨r', hset, rfl⟩ := map_eq_ok_iff.mp ((hradiation r).symm.trans h)
    exact ⟨r, r', hset, rfl⟩
  | ringDelta a => cases (hringDelta a).symm.trans h
  | finiteness detailed => cases (hfiniteness detailed).symm.trans h

theorem putsProcess_processWork (q : ProcessRequest) : PutsProcess q.Gives (processWork q) := by
  cases q with
  | create as draft => exact putsProcess_createProcess as draft
  | steps on count => exact putsProcess_changeRadiation on (fun _ => rfl) (fun _ => rfl) fun _ => rfl
  | stepSize on size => exact putsProcess_changeRadiation on (fun _ => rfl) (fun _ => rfl) fun _ => rfl
  | scale on a =>
    refine putsProcess_changeProcess on fun p p' h => ?_
    cases p with
    | radiation r => cases h
    | ringDelta a' => exact (Except.ok.inj h).symm
    | finiteness detailed => cases h

theorem processWork_refused {q : ProcessRequest} {s : Session} {fault : Fault}
    (h : ((processWork q).run s).1 = .error fault) : ((processWork q).run s).2 = s := by
  have hputs := putsProcess_processWork q s
  rw [h] at hputs
  exact hputs

theorem processWork_granted {q : ProcessRequest} {s : Session} {p : BeamProcess Float}
    (h : ((processWork q).run s).1 = .ok p) :
    q.Gives p ∧ ∃ number, ((processWork q).run s).2.plant.processes = s.plant.processes.insert number p := by
  have hputs := putsProcess_processWork q s
  rw [h] at hputs
  exact hputs

/-! ### Sessions under process requests -/

/-- The sessions that requests with numbers as step lengths lead to, with any work in between that makes no other
process. -/
inductive Furnished : Session → Prop
  | start : Furnished {}
  | request {s : Session} (h : Furnished s) (q : ProcessRequest) (hq : q.IsNumeric) : Furnished ((processWork q).run s).2
  | beside {s s' : Session} (h : Furnished s)
      (hprocesses : ∀ number p, s'.plant.processes.get? number = some p → s.plant.processes.get? number = some p) :
      Furnished s'

theorem Furnished.hasRule {s : Session} (h : Furnished s) :
    ∀ number p, s.plant.processes.get? number = some p → p.HasRule := by
  induction h with
  | start => exact fun number p hp => nomatch hp
  | request h q hq ih =>
    intro number p hp
    rename_i s
    cases hresult : ((processWork q).run s).1 with
    | error fault =>
      rw [processWork_refused hresult] at hp
      exact ih number p hp
    | ok p' =>
      obtain ⟨hgives, changed, hprocesses⟩ := processWork_granted hresult
      rw [hprocesses, Table.get?_insert] at hp
      split at hp
      · obtain rfl := Option.some.inj hp
        exact hgives.hasRule hq
      · exact ih number p hp
  | beside _ hprocesses ih => exact fun number p hp => ih number p (hprocesses number p hp)

theorem Furnished.hasRule_of_mem {s : Session} (h : Furnished s) {numbers : List Nat} {c : OrbitConfig Float}
    {p : BeamProcess Float} (hp : p ∈ s.plant.processesOf numbers ++ OrbitSearch.transients c) : p.HasRule := by
  rcases List.mem_append.mp hp with hattached | htransient
  · obtain ⟨number, -, hnumber⟩ := List.mem_filterMap.mp hattached
    exact h.hasRule number p hnumber
  · exact BeamProcess.hasRule_of_mem_transients htransient

/-- In every session that requests with numbers as step lengths lead to, a radiation process has at least one step and
no step length, or a step length above zero and no steps, and it asks for at least one step in any element of finite
length where the count does not overflow. A request that is refused changes nothing. Whatever processes are attached,
with those of a closed-orbit search among them, an element has at least one step, and its length is divided by their
count. A step length that is no number is let through, and then there is neither a count nor a length, and no step at
all. -/
theorem step_counts_stay_valid {s : Session} (hs : Furnished s) :
    (∀ number r, s.plant.processes.get? number = some (.radiation r) → Xor r.IsCounted r.IsLimited ∧
      ∀ length : Float, length.isFinite = true → ¬r.Overflows length →
        ∃ n, 1 ≤ n ∧ r.requestedSteps length = .ok n) ∧
    (∀ q fault, ((processWork q).run s).1 = .error fault → ((processWork q).run s).2 = s) ∧
    (∀ numbers (c : OrbitConfig Float) (e : Element Float),
      (∀ n, Pass.stepCount (s.plant.processesOf numbers ++ OrbitSearch.transients c) e = .ok n →
        1 ≤ n ∧ Scalar.overCount e.length n = .ok (e.length / Scalar.ofNat n)) ∧
      (e.length.isFinite = true →
        (∀ p ∈ s.plant.processesOf numbers ++ OrbitSearch.transients c, ¬p.Overflows e) →
        ∃ n, Pass.stepCount (s.plant.processesOf numbers ++ OrbitSearch.transients c) e = .ok n)) ∧
    ∀ on size p, Scalar.isNumber size = false → ((processWork (.stepSize on size)).run s).1 = .ok p →
      ∃ number r, p = .radiation r ∧
        ((processWork (.stepSize on size)).run s).2.plant.processes.get? number = some (.radiation r) ∧
        ¬Xor r.IsCounted r.IsLimited ∧ ∀ length, r.requestedSteps length = .ok 0 := by
  refine ⟨?_, fun q fault => processWork_refused, ?_, ?_⟩
  · intro number r hr
    have hrule : r.HasRule := hs.hasRule number _ hr
    exact ⟨hrule, fun length hlength hfits => hrule.exists_requestedSteps hlength hfits⟩
  · intro numbers c e
    constructor
    · intro n hn
      have hone := Pass.one_le_stepCount (fun p hp => hs.hasRule_of_mem hp) hn
      exact ⟨hone, Scalar.overCount_of_ne_zero (Nat.one_le_iff_ne_zero.mp hone) e.length⟩
    · intro hlength hfits
      obtain ⟨n, -, hn⟩ := Pass.exists_stepCount_of_requests fun p hp =>
        (hs.hasRule_of_mem hp).exists_requestedSteps hlength (hfits p hp)
      exact ⟨n, hn⟩
  · intro on size p hsize hgranted
    obtain ⟨⟨r, r', hset, rfl⟩, number, hprocesses⟩ := processWork_granted hgranted
    obtain ⟨hlet, hidle⟩ := Radiation.setMaxStep_of_not_isNumber hsize r
    obtain rfl := Except.ok.inj (hlet.symm.trans hset)
    refine ⟨number, r.limitedStep size, rfl, ?_, hidle.not_hasRule, hidle.requestedSteps_eq⟩
    rw [hprocesses, Table.get?_insert_self]

end Session

namespace SteppedDrift

open Session

def drift : Element Float := ⟨0, "D", "Drift", 1, .drift⟩

/-- A radiation process with a count of steps. -/
def counted : Session :=
  ((processWork (.create (some "radiation") (.radiation (.int 4) 0 false))).run {}).2

/-- The process with steps of a quarter of a metre instead. -/
def limited : Session := ((processWork (.stepSize "radiation" 0.25)).run counted).2

/-- A search with radiation. -/
def config : OrbitConfig Float := { OrbitConfig.standard with radiation := true }

def nan : Float := 0 / 0

theorem furnished_counted : Furnished counted := .request .start _ trivial

theorem furnished_limited : Furnished limited := by
  have hnumber : Scalar.isNumber (0.25 : Float) = true := by decide +kernel
  exact .request furnished_counted _ hnumber

theorem get?_limited : limited.plant.processes.get? 0 = some (.radiation ⟨0, 0.25, false⟩) := by rfl

theorem fits_drift {p : BeamProcess Float}
    (hp : p ∈ limited.plant.processesOf [0] ++ OrbitSearch.transients config) : ¬p.Overflows drift := by
  have hprocesses : limited.plant.processesOf [0] ++ OrbitSearch.transients config =
      [.radiation ⟨0, 0.25, false⟩, .radiation ⟨1, 0, false⟩] := by rfl
  have hquotient : (drift.length / 0.25).isInf = false := by decide +kernel
  have hzero : Scalar.lt (0 : Float) 0 = false := by decide +kernel
  rw [hprocesses, List.mem_cons, List.mem_singleton] at hp
  rcases hp with rfl | rfl
  · exact fun h => Bool.false_ne_true (hquotient.symm.trans h.2)
  · exact fun h => Bool.false_ne_true (hzero.symm.trans h.1)

/-- Four steps of a quarter of a metre, and none if the step is no number. -/
theorem step_counts_stay_valid_limited :
    Furnished limited ∧ Scalar.isNumber nan = false ∧
      Xor (Radiation.IsCounted ⟨0, 0.25, false⟩) (Radiation.IsLimited ⟨0, 0.25, false⟩) ∧
      (∃ n, Pass.stepCount (limited.plant.processesOf [0] ++ OrbitSearch.transients config) drift = .ok n ∧
        1 ≤ n ∧ Scalar.overCount drift.length n = .ok (drift.length / Scalar.ofNat n)) ∧
      ∃ number r, ((processWork (.stepSize "radiation" nan)).run limited).2.plant.processes.get? number =
          some (.radiation r) ∧
        ∀ length, r.requestedSteps length = .ok 0 := by
  obtain ⟨hrules, -, hcounts, hnan⟩ := step_counts_stay_valid furnished_limited
  have hfinite : drift.length.isFinite = true := by decide +kernel
  have hnone : Scalar.isNumber nan = false := by decide +kernel
  refine ⟨furnished_limited, hnone, (hrules 0 _ get?_limited).1, ?_, ?_⟩
  · obtain ⟨hvalid, hexists⟩ := hcounts [0] config drift
    obtain ⟨n, hn⟩ := hexists hfinite fun p hp => fits_drift hp
    exact ⟨n, hn, hvalid n hn⟩
  · have hgranted : ((processWork (.stepSize "radiation" nan)).run limited).1 =
        .ok (.radiation ⟨0, nan, false⟩) := by rfl
    obtain ⟨number, r, -, hr, -, hsteps⟩ := hnan "radiation" nan _ hnone hgranted
    exact ⟨number, r, hr, hsteps⟩

/-- A step that is no number is let through. Then a drift is split into no steps, and its length divided by their
count. -/
theorem drift_in_no_steps :
    Radiation.build (.int 1) (0 : Float) false = .ok ⟨1, 0, false⟩ ∧
      Radiation.setMaxStep ⟨1, 0, false⟩ nan = .ok ⟨0, nan, false⟩ ∧
      ¬Xor (Radiation.IsCounted ⟨0, nan, false⟩) (Radiation.IsLimited ⟨0, nan, false⟩) ∧
      Radiation.requestedSteps ⟨0, nan, false⟩ drift.length = .ok 0 ∧
      Pass.stepCount [.radiation ⟨0, nan, false⟩] drift = .ok 0 ∧
      ((Pass.throughElement [.radiation ⟨0, nan, false⟩] drift).run ⟨⟨1, 1, []⟩, {}⟩).1 =
        .error (.math .divisionByZero) := by
  have hnone : Scalar.isNumber nan = false := by decide +kernel
  obtain ⟨hlet, hidle⟩ := Radiation.setMaxStep_of_not_isNumber hnone ⟨1, 0, false⟩
  exact ⟨rfl, hlet, hidle.not_hasRule, hidle.requestedSteps_eq _, rfl, rfl⟩

end SteppedDrift

end BeamOptics
