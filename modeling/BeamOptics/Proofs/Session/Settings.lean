import BeamOptics.Proofs.ClosedOrbit.Setting
import BeamOptics.Proofs.Session.Orbit

/-!
# Settings of the solvers of a session

A solver is looked up without regard to settings. So the calls that change the settings of one solver always come to the
same place, and each of them does there what the setter does: settings that are valid stay valid, and a call that is
refused leaves the session as it was.
-/

namespace BeamOptics

namespace Session

/-! ### Looking up a solver -/

/-- Sessions in which every name stands for the same solver. -/
structure SameNames (s s' : Session) : Prop where
  names : s.names = s'.names
  models : s.models = s'.models
  solvers : s.solvers = s'.solvers

theorem agree_entry {τ : Type} {table : Session → Table Nat τ} (h : ∀ s s', SameNames s s' → table s = table s')
    (number : Nat) : Action.Agree SameNames (entry table number) (entry table number) := by
  intro s s' hs
  rw [entry, Action.run_get_bind, Action.run_get_bind, h s s' hs]
  cases (table s').get? number <;> exact ⟨rfl, hs⟩

theorem agree_handle (name : String) : Action.Agree SameNames (handle name) (handle name) := by
  refine (Action.agree_ask fun s s' h => h.names).bind fun names => ?_
  split
  · split
    · exact Action.agree_pure _
    · exact Action.agree_throw _
  · split
    · refine (agree_entry (fun s s' h => h.models) _).bind fun m => ?_
      exact (Action.agree_lift _).bind fun e => Action.agree_pure _
    · exact Action.agree_throw _
    · exact Action.agree_throw _

theorem agree_solver (name : String) : Action.Agree SameNames (solver name) (solver name) := by
  refine Action.Agree.bind ?_ fun number => agree_entry (fun s s' h => h.solvers) number
  refine (agree_handle name).bind fun h => ?_
  cases h.solver? with
  | none => exact Action.agree_throw _
  | some number => exact Action.agree_pure _

theorem solver_of_configs (name : String) (s : Session) (configs : Table Nat (OrbitConfig Float)) :
    ((solver name).run { s with configs }).1 = ((solver name).run s).1 :=
  (agree_solver name { s with configs } s ⟨rfl, rfl, rfl⟩).1

/-! ### Calls of setters -/

variable {s : Session} {on : String} {solver : Solver} {c : OrbitConfig Float}

theorem run_changeOf {number : Nat} (hconfig : s.configs.get? number = some c) (setting : OrbitSetting) (d : Datum) :
    (changeOf number setting d).run s = (((OrbitConfig.setter setting d).run c).1,
      { s with configs := s.configs.insert number ((OrbitConfig.setter setting d).run c).2 }) := by
  rw [changeOf, Action.run_bind_of_ok (run_entry hconfig), OrbitConfig.run_setter]
  cases c.change setting d with
  | ok c' => rfl
  | error fault => exact Prod.ext rfl (congrArg (fun configs => { s with configs }) (Table.insert_of_get? hconfig).symm)

/-- A call runs the setter on the settings of the solver. -/
theorem run_changeSetting (hsolver : ((Session.solver on).run s).1 = .ok solver)
    (hconfig : s.configs.get? solver.config = some c) (setting : OrbitSetting) (d : Datum) :
    (changeSetting on setting d).run s = (.ok ((OrbitConfig.setter setting d).run c),
      { s with configs := s.configs.insert solver.config ((OrbitConfig.setter setting d).run c).2 }) := by
  have hafter : (entry configs solver.config).run
      { s with configs := s.configs.insert solver.config ((OrbitConfig.setter setting d).run c).2 } =
      (.ok ((OrbitConfig.setter setting d).run c).2, _) := run_entry (Table.get?_insert_self _ _ _)
  rw [changeSetting, run_bind_of_keeps (keeps_solver on), hsolver]
  dsimp only
  rw [Action.run_bind_of_ok (Action.run_outcome _ _), run_changeOf hconfig]
  exact Action.run_bind_of_ok hafter _

/-- The session after calls of setters on a solver. -/
def afterSettings (on : String) (s : Session) (calls : List (OrbitSetting × Datum)) : Session :=
  calls.foldl (fun s call => ((changeSetting on call.1 call.2).run s).2) s

/-- Whatever is called, the solver stays and its settings stay valid. -/
theorem exists_valid_afterSettings (hsolver : ((Session.solver on).run s).1 = .ok solver)
    (hconfig : s.configs.get? solver.config = some c) (hvalid : c.Valid) (calls : List (OrbitSetting × Datum)) :
    ((Session.solver on).run (s.afterSettings on calls)).1 = .ok solver ∧
      ∃ c', (s.afterSettings on calls).configs.get? solver.config = some c' ∧ c'.Valid := by
  induction calls generalizing s c with
  | nil => exact ⟨hsolver, c, hconfig, hvalid⟩
  | cons call rest ih =>
    have hrun := run_changeSetting hsolver hconfig call.1 call.2
    have hafter : s.afterSettings on (call :: rest) =
        afterSettings on ((changeSetting on call.1 call.2).run s).2 rest := rfl
    rw [hafter, hrun]
    apply ih
    · exact (solver_of_configs on s _).trans hsolver
    · exact Table.get?_insert_self _ _ _
    · exact OrbitConfig.valid_setter hvalid call.1 call.2

/-- Settings that start from the standard ones are within their bounds after any calls of setters, and give just one
rule for radiation steps. A call does the assignments of the setter, and one that is refused has done none. So the
radiation process of a search can be made at any time, and it asks for steps by that rule. -/
theorem solver_settings_stay_valid (hsolver : ((Session.solver on).run s).1 = .ok solver)
    (hconfig : s.configs.get? solver.config = some OrbitConfig.standard) (calls : List (OrbitSetting × Datum)) :
    ∃ c, (s.afterSettings on calls).configs.get? solver.config = some c ∧ c.Valid ∧
      (∀ setting d,
        ((changeSetting on setting d).run (s.afterSettings on calls)).1 = .ok ((OrbitConfig.setter setting d).run c) ∧
        ∀ fault, ((OrbitConfig.setter setting d).run c).1 = .error fault →
          ((OrbitConfig.setter setting d).run c).2 = c ∧
          ((changeSetting on setting d).run (s.afterSettings on calls)).2 = s.afterSettings on calls) ∧
      ∃ r, c.buildRadiation = .ok r ∧ c.AsksFor r ∧
        ∀ r', .radiation r' ∈ OrbitSearch.transients c ↔ c.radiation = true ∧ r' = r := by
  obtain ⟨hstays, c, hc, hvalid⟩ := exists_valid_afterSettings hsolver hconfig OrbitConfig.valid_standard calls
  refine ⟨c, hc, hvalid, fun setting d => ?_, c.exists_buildRadiation⟩
  rw [run_changeSetting hstays hc]
  refine ⟨rfl, fun fault hfault => ?_⟩
  have hkept := OrbitConfig.setter_of_error hfault
  refine ⟨hkept, ?_⟩
  rw [hkept, Table.insert_of_get? hc]

end Session

namespace MonitoredRing

/-- A length that is no number, a broken count and a step for differences below zero are refused between calls that
switch radiation on and limit its steps. -/
def calls : List (OrbitSetting × Datum) :=
  [(.radiationStepSize, .float (0 / 0)), (.radiation, .bool true), (.radiationSteps, .float 2.5),
    (.radiationStepSize, .float 0.5), (.delta, .float (-1))]

end MonitoredRing

namespace Session

open MonitoredRing in
theorem solver_settings_stay_valid_monitored :
    ((Session.solver "finder").run session).1 = .ok ⟨0, 1, 0, 0⟩ ∧
      session.configs.get? 0 = some OrbitConfig.standard ∧
      ∃ c, (session.afterSettings "finder" calls).configs.get? 0 = some c ∧ c.Valid ∧ c.LimitsSteps ∧
        (∃ fault, ((OrbitConfig.setter .radiationStepSize (.float (0 / 0))).run c).1 = .error fault ∧
          ((OrbitConfig.setter .radiationStepSize (.float (0 / 0))).run c).2 = c) ∧
        ∃ r, c.buildRadiation = .ok r ∧ .radiation r ∈ OrbitSearch.transients c ∧
          r.requestedSteps 2 = .ok 4 := by
  have hsolver : ((Session.solver "finder").run session).1 = .ok ⟨0, 1, 0, 0⟩ := by rfl
  have hconfig : session.configs.get? 0 = some OrbitConfig.standard := rfl
  obtain ⟨c, hc, hvalid, hcalls, r, hbuild, hasks, hmem⟩ := solver_settings_stay_valid hsolver hconfig calls
  have hafter : ((session.afterSettings "finder" calls).configs.get? 0).any (fun c =>
      c.radiation && c.radiationSteps == 0 && Scalar.lt 0 c.radiationStepSize &&
        (Scalar.ceil (2 / c.radiationStepSize)).toOption.any (· == 4) &&
        ((OrbitConfig.setter .radiationStepSize (.float (0 / 0))).run c).1.toOption.isNone) = true := by
    decide +kernel
  rw [hc] at hafter
  simp only [Option.any_some, Bool.and_eq_true, beq_iff_eq] at hafter
  obtain ⟨⟨⟨⟨hradiation, hcount⟩, hsize⟩, hquotient⟩, hnan⟩ := hafter
  obtain ⟨fault, hfault⟩ := exists_error_of_isNone hnan
  obtain ⟨i, hceil, hi⟩ := exists_ok_of_any hquotient
  obtain rfl := beq_iff_eq.mp hi
  have hlimits : c.LimitsSteps := ⟨hsize, hcount⟩
  refine ⟨hsolver, hconfig, c, hc, hvalid, hlimits, ⟨fault, hfault, ((hcalls _ _).2 fault hfault).1⟩, r, hbuild,
    (hmem r).mpr ⟨hradiation, rfl⟩, ?_⟩
  rw [hasks.limit hlimits, hceil]
  rfl

end Session

end BeamOptics
