import BeamOptics.Proofs.Tracking.Attachments
import Mathlib.Data.List.TakeWhile

/-!
# Blocks

A block attaches processes behind those that are attached already, and detaches them when its body has ended in one way
or another. To detach a process is to take away its first attachment, which is not the one of the block if the process
was attached before. So a block hands back as many attachments of each process as it has found, but one that it has
found may have come to stand behind others of its kind.
-/

namespace BeamOptics

namespace Station

variable {α : Type}

/-! ### Taking away first attachments -/

/-- Whatever order the attachments have come to, as many are left of each process as there were before the numbers. -/
theorem eraseAll_perm {numbers left attached : List Nat} (h : left.Perm (attached ++ numbers)) :
    (numbers.foldl List.erase left).Perm attached := by
  induction numbers generalizing left with
  | nil => simpa using h
  | cons number rest ih =>
    have herase := (h.trans List.perm_middle).erase number
    rw [List.erase_cons_head] at herase
    exact ih herase

theorem ofKind_eraseAll (kindOf : Nat → ProcessKind) (k : ProcessKind) (numbers attached : List Nat) :
    BeamProcess.ofKind kindOf k (numbers.foldl List.erase attached) =
      numbers.foldl List.erase (BeamProcess.ofKind kindOf k attached) := by
  induction numbers generalizing attached with
  | nil => rfl
  | cons number rest ih => rw [List.foldl_cons, List.foldl_cons, ih, BeamProcess.ofKind, ← List.erase_filter]; rfl

/-- From its first attachment on, nothing else of its kind is attached: this holds of each of the numbers, those that
are not attached included. -/
def Fits (kindOf : Nat → ProcessKind) (attached numbers : List Nat) : Prop :=
  ∀ n ∈ numbers, ∀ m ∈ (BeamProcess.ofKind kindOf (kindOf n) attached).dropWhile (· ≠ n), m = n

instance (kindOf : Nat → ProcessKind) (attached numbers : List Nat) : Decidable (Fits kindOf attached numbers) :=
  inferInstanceAs (Decidable (∀ n ∈ numbers, ∀ m ∈ _, m = n))

/-- Behind others, an attachment can be taken away in front of nothing but its like. -/
theorem erase_append_cons {attached : List Nat} {number : Nat} (h : ∀ m ∈ attached.dropWhile (· ≠ number), m = number)
    (rest : List Nat) : (attached ++ number :: rest).erase number = attached ++ rest := by
  have hfront : number ∉ attached.takeWhile (· ≠ number) := by
    intro hmem
    simpa using List.mem_takeWhile_imp hmem
  have hback : (attached.dropWhile (· ≠ number) ++ number :: rest).erase number =
      attached.dropWhile (· ≠ number) ++ rest := by
    rw [List.eq_replicate_of_mem h]
    generalize (attached.dropWhile (· ≠ number)).length = count
    cases count with
    | zero => simp
    | succ count => rw [List.replicate_succ, List.cons_append, List.erase_cons_head, List.append_cons,
        ← List.replicate_succ', List.replicate_succ]
  calc (attached ++ number :: rest).erase number
    _ = (attached.takeWhile (· ≠ number) ++ (attached.dropWhile (· ≠ number) ++ number :: rest)).erase number := by
      rw [← List.append_assoc, List.takeWhile_append_dropWhile]
    _ = attached.takeWhile (· ≠ number) ++ (attached.dropWhile (· ≠ number) ++ rest) := by
      rw [List.erase_append_right _ hfront, hback]
    _ = attached ++ rest := by rw [← List.append_assoc, List.takeWhile_append_dropWhile]

theorem Fits.eraseAll_ofKind {kindOf : Nat → ProcessKind} {attached numbers : List Nat}
    (h : Fits kindOf attached numbers) (k : ProcessKind) :
    numbers.foldl List.erase (BeamProcess.ofKind kindOf k attached ++ BeamProcess.ofKind kindOf k numbers) =
      BeamProcess.ofKind kindOf k attached := by
  induction numbers with
  | nil => simp [BeamProcess.ofKind]
  | cons number rest ih =>
    have ih := ih fun n hn => h n (List.mem_cons_of_mem number hn)
    rw [List.foldl_cons]
    by_cases hkind : kindOf number = k
    · have hnumber := h number List.mem_cons_self
      rw [hkind] at hnumber
      rw [BeamProcess.ofKind_cons_self hkind, erase_append_cons hnumber, ih]
    · have hnot : number ∉ BeamProcess.ofKind kindOf k attached ++ BeamProcess.ofKind kindOf k rest := by
        rw [← BeamProcess.ofKind_append]
        exact fun hmem => hkind (BeamProcess.mem_ofKind.mp hmem).2
      rw [BeamProcess.ofKind_cons_of_ne hkind, List.erase_of_not_mem hnot, ih]

/-! ### Bodies -/

/-- A body that attaches and detaches processes by blocks of its own alone. The rule on blocks says what a block may
bring where what is attached. -/
inductive Blocks (rule : List Nat → List Nat → Prop) :
    List Nat → {β : Type} → Action Fault (Station α) β → Prop
  | work {attached : List Nat} {β : Type} {body : Action Fault (Station α) β}
    (hbody : body.Keeps fun s => s.tracker.processes) : Blocks rule attached body
  | bind {attached : List Nat} {β γ : Type} {first : Action Fault (Station α) β} {next : β → Action Fault (Station α) γ}
    (hfirst : Blocks rule attached first) (hnext : ∀ b, Blocks rule attached (next b)) :
    Blocks rule attached (first >>= next)
  | outcome {attached : List Nat} {β : Type} {body : Action Fault (Station α) β} (hbody : Blocks rule attached body) :
    Blocks rule attached (body.outcome : Action Fault (Station α) (Except Fault β))
  | attached {attached numbers : List Nat} {β : Type} {body : Action Fault (Station α) β}
    (hnumbers : rule attached numbers) (hbody : Blocks rule (attached ++ numbers) body) :
    Blocks rule attached (Station.attached numbers body)

variable {β : Type}

theorem processes_attachAll (numbers : List Nat) (s : Station α) :
    ((attachAll numbers).run s).2.tracker.processes = s.tracker.processes ++ numbers := by
  obtain ⟨s', hrun, -, htracker⟩ := run_attachAll numbers s
  rw [hrun, htracker]

theorem processes_attached (numbers : List Nat) (body : Action Fault (Station α) β) (s : Station α) :
    ((attached numbers body).run s).2.tracker.processes =
      numbers.foldl List.erase (body.run ((attachAll numbers).run s).2).2.tracker.processes := by
  obtain ⟨s', hrun, -, htracker⟩ := run_attached numbers body s
  rw [hrun, htracker]

/-- A body leaves as many attachments of each process as it has found. -/
theorem Blocks.perm {rule : List Nat → List Nat → Prop} {attached : List Nat} {body : Action Fault (Station α) β}
    (h : Blocks rule attached body) (s : Station α) :
    (body.run s).2.tracker.processes.Perm s.tracker.processes := by
  induction h generalizing s with
  | work hbody =>
    have hkept := hbody s
    exact .of_eq hkept
  | @bind _ _ _ first next _ _ ihfirst ihnext =>
    have hfirst := ihfirst s
    rcases hrun : first.run s with ⟨fault | b, s₁⟩ <;> rw [hrun] at hfirst
    · rw [Action.run_bind_of_error hrun]
      exact hfirst
    · rw [Action.run_bind_of_ok hrun]
      exact (ihnext b s₁).trans hfirst
  | outcome _ ih => exact ih s
  | @attached _ numbers _ body _ _ ih =>
    rw [processes_attached]
    apply eraseAll_perm
    rw [← processes_attachAll]
    exact ih _

/-- Where every block fits, a body leaves the attachments of each kind in the order in which it has found them. -/
theorem Blocks.ofKind_eq {kindOf : Nat → ProcessKind} {attached : List Nat} {body : Action Fault (Station α) β}
    (h : Blocks (Fits kindOf) attached body) {s : Station α}
    (hs : ∀ k, BeamProcess.ofKind kindOf k s.tracker.processes = BeamProcess.ofKind kindOf k attached) :
    ∀ k, BeamProcess.ofKind kindOf k (body.run s).2.tracker.processes = BeamProcess.ofKind kindOf k attached := by
  induction h generalizing s with
  | work hbody =>
    intro k
    exact (congrArg (BeamProcess.ofKind kindOf k) (hbody s)).trans (hs k)
  | @bind _ _ _ first next _ _ ihfirst ihnext =>
    have hfirst := ihfirst hs
    rcases hrun : first.run s with ⟨fault | b, s₁⟩ <;> rw [hrun] at hfirst
    · rw [Action.run_bind_of_error hrun]
      exact hfirst
    · rw [Action.run_bind_of_ok hrun]
      exact ihnext b hfirst
  | outcome _ ih => exact ih hs
  | @attached attached numbers _ body hnumbers _ ih =>
    have hbody := ih (s := ((attachAll numbers).run s).2) fun k => by
      rw [processes_attachAll, BeamProcess.ofKind_append, BeamProcess.ofKind_append, hs]
    intro k
    rw [processes_attached, ofKind_eraseAll, hbody, BeamProcess.ofKind_append, hnumbers.eraseAll_ofKind]

/-! ### Blocks -/

variable [Scalar α]

/-- A block ends as its body does. Whatever blocks stand in its body, it hands back as many attachments of each process
as it has found, so that every element is split into as many steps as it would be with those, by the settings that the
processes have then. The order in which the processes act is the same again where each block fits: where behind none of
its processes that were attached before there is another one of the kind. A body that attaches and detaches nothing
leaves it to the block to take away the first attachments of the processes it has brought in. -/
theorem blocks_hand_back_attachments (s : Station α) (numbers : List Nat) (body : Action Fault (Station α) β)
    (hbody : Blocks (fun _ _ => True) (s.tracker.processes ++ numbers) body) :
    ((attached numbers body).run s).1 = (body.run ((attachAll numbers).run s).2).1 ∧
    ((attached numbers body).run s).2.tracker.processes.Perm s.tracker.processes ∧
    (∀ e, (((attached numbers body).run s).2.stepCount e).toOption =
      (stepCount { s with plant := ((attached numbers body).run s).2.plant } e).toOption) ∧
    (∀ kindOf, Fits kindOf s.tracker.processes numbers →
      Blocks (Fits kindOf) (s.tracker.processes ++ numbers) body →
      BeamProcess.inOrder kindOf ((attached numbers body).run s).2.tracker.processes =
        BeamProcess.inOrder kindOf s.tracker.processes) ∧
    ((body.Keeps fun s => s.tracker.processes) →
      ((attached numbers body).run s).2.tracker.processes =
        numbers.foldl List.erase (s.tracker.processes ++ numbers)) := by
  have hperm := (Blocks.attached trivial hbody).perm s
  refine ⟨?_, hperm, ?_, ?_, ?_⟩
  · obtain ⟨s', hrun, -, -⟩ := run_attached numbers body s
    rw [hrun]
  · intro e
    exact Pass.toOption_stepCount_perm (hperm.filterMap _) e
  · intro kindOf hfits hnested
    apply BeamProcess.inOrder_eq_inOrder_iff.mpr
    exact (Blocks.attached hfits hnested).ofKind_eq fun k => rfl
  · intro hkeeps
    rw [processes_attached, ← processes_attachAll]
    exact congrArg (numbers.foldl List.erase) (hkeeps _)

end Station

namespace TwoRescalings

/-! ### Two processes of one kind -/

/-- Two processes that lengthen the path are attached; there is a check that is not. -/
def station : Station Float where
  tracker := { processes := [0, 1] }
  plant := { processes :=
    ((Table.empty.insert 0 (.ringDelta 1)).insert 1 (.ringDelta 2)).insert 2 (.finiteness false) }

def interrupted : Action Fault (Station Float) Unit := Station.attached [1] (throw (.interrupted "stop"))

/-- The process that acts last may be brought in again and again, and so may one that is not attached. -/
theorem order_after_interrupted_blocks :
    ((Station.attached [1, 2, 1] interrupted).run station).1 = .error (.interrupted "stop") ∧
    ((Station.attached [1, 2, 1] interrupted).run station).2.tracker.processes.Perm [0, 1] ∧
    BeamProcess.inOrder station.plant.kindOf
      ((Station.attached [1, 2, 1] interrupted).run station).2.tracker.processes = [0, 1] := by
  have hwork (rule : List Nat → List Nat → Prop) :
      Station.Blocks rule [0, 1, 1, 2, 1, 1] (throw (.interrupted "stop") : Action Fault (Station Float) Unit) :=
    .work (Action.keeps_throw _)
  obtain ⟨houtcome, hperm, -, horder, -⟩ :=
    Station.blocks_hand_back_attachments station [1, 2, 1] interrupted (.attached trivial (hwork _))
  have hinner : Station.Fits station.plant.kindOf [0, 1, 1, 2, 1] [1] := by decide
  refine ⟨?_, hperm, ?_⟩
  · obtain ⟨s', hrun, -, -⟩ := Station.run_attached [1] (throw (.interrupted "stop"))
      ((Station.attachAll [1, 2, 1]).run station).2
    rw [houtcome, interrupted, hrun]
    rfl
  · rw [horder station.plant.kindOf (by decide) (.attached hinner (hwork _))]
    decide

/-- A block that brings in the first of the two leaves it to act after the second. -/
theorem block_swaps_rescalings :
    ((pure () : Action Fault (Station Float) Unit).Keeps fun s => s.tracker.processes) ∧
    BeamProcess.inOrder station.plant.kindOf station.tracker.processes = [0, 1] ∧
    BeamProcess.inOrder station.plant.kindOf
      ((Station.attached [0] (pure ())).run station).2.tracker.processes = [1, 0] := by
  refine ⟨Action.keeps_pure (), by decide, ?_⟩
  rw [Station.processes_attached, Action.run_pure, Station.processes_attachAll]
  decide

end TwoRescalings

end BeamOptics
