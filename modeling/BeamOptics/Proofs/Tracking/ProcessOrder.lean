import BeamOptics.Proofs.Tracking.Frame

/-!
# The order of processes

Processes act in the order of their kinds, and those of one kind in the order in which they were attached: attached
processes are sorted by kind, and the sort is stable. So all that matters is what is attached of each kind. The same
goes for counts of steps, since no process but radiation can refuse one.
-/

namespace BeamOptics

namespace BeamProcess

variable {ι : Type} {kindOf : ι → ProcessKind}

/-- What there is of one kind. -/
def ofKind (kindOf : ι → ProcessKind) (k : ProcessKind) (items : List ι) : List ι :=
  items.filter fun item => kindOf item = k

theorem mem_ofKind {k : ProcessKind} {items : List ι} {item : ι} :
    item ∈ ofKind kindOf k items ↔ item ∈ items ∧ kindOf item = k := by
  simp [ofKind]

theorem ofKind_append (k : ProcessKind) (front back : List ι) :
    ofKind kindOf k (front ++ back) = ofKind kindOf k front ++ ofKind kindOf k back :=
  List.filter_append front back

theorem ofKind_cons_self {k : ProcessKind} {item : ι} (h : kindOf item = k) (rest : List ι) :
    ofKind kindOf k (item :: rest) = item :: ofKind kindOf k rest :=
  List.filter_cons_of_pos (decide_eq_true h)

theorem ofKind_cons_of_ne {k : ProcessKind} {item : ι} (h : kindOf item ≠ k) (rest : List ι) :
    ofKind kindOf k (item :: rest) = ofKind kindOf k rest :=
  List.filter_cons_of_neg (by simpa using h)

theorem ofKind_ofKind_self (k : ProcessKind) (items : List ι) :
    ofKind kindOf k (ofKind kindOf k items) = ofKind kindOf k items := by
  apply List.filter_eq_self.mpr
  intro item hitem
  exact decide_eq_true (mem_ofKind.mp hitem).2

theorem ofKind_ofKind_of_ne {j k : ProcessKind} (h : j ≠ k) (items : List ι) :
    ofKind kindOf j (ofKind kindOf k items) = [] := by
  apply List.filter_eq_nil_iff.mpr
  intro item hitem hj
  exact h ((of_decide_eq_true hj).symm.trans (mem_ofKind.mp hitem).2)

theorem inOrder_eq (kindOf : ι → ProcessKind) (items : List ι) :
    inOrder kindOf items =
      ofKind kindOf .radiation items ++ (ofKind kindOf .ringDelta items ++ ofKind kindOf .diagnostic items) := by
  simp [inOrder, ProcessKind.all, ofKind]

/-! ### A stable sort -/

theorem inOrder_perm (kindOf : ι → ProcessKind) (items : List ι) : (inOrder kindOf items).Perm items := by
  induction items with
  | nil => rfl
  | cons item rest ih =>
    -- the new item goes to the front of its kind, behind all that is of a lower rank
    rw [inOrder_eq] at ih ⊢
    cases hkind : kindOf item with
    | radiation =>
      rw [ofKind_cons_self hkind, ofKind_cons_of_ne (by simp [hkind]), ofKind_cons_of_ne (by simp [hkind])]
      exact ih.cons item
    | ringDelta =>
      rw [ofKind_cons_of_ne (by simp [hkind]), ofKind_cons_self hkind, ofKind_cons_of_ne (by simp [hkind])]
      exact List.perm_middle.trans (ih.cons item)
    | diagnostic =>
      rw [ofKind_cons_of_ne (by simp [hkind]), ofKind_cons_of_ne (by simp [hkind]), ofKind_cons_self hkind,
        ← List.append_assoc]
      rw [← List.append_assoc] at ih
      exact List.perm_middle.trans (ih.cons item)

theorem pairwise_inOrder (kindOf : ι → ProcessKind) (items : List ι) :
    (inOrder kindOf items).Pairwise fun a b => (kindOf a).rank ≤ (kindOf b).rank := by
  have hsame (k : ProcessKind) :
      (ofKind kindOf k items).Pairwise fun a b => (kindOf a).rank ≤ (kindOf b).rank := by
    apply List.pairwise_of_forall_mem_list
    intro a ha b hb
    exact ((mem_ofKind.mp ha).2.trans (mem_ofKind.mp hb).2.symm) ▸ Nat.le_refl _
  rw [inOrder_eq, List.pairwise_append, List.pairwise_append]
  refine ⟨hsame _, ⟨hsame _, hsame _, ?_⟩, ?_⟩
  · intro a ha b hb
    rw [(mem_ofKind.mp ha).2, (mem_ofKind.mp hb).2]
    decide
  · intro a ha b hb
    rw [(mem_ofKind.mp ha).2]
    rcases List.mem_append.mp hb with hb | hb <;> rw [(mem_ofKind.mp hb).2] <;> decide

/-- Sorting by kind keeps the order within a kind. -/
theorem ofKind_inOrder (k : ProcessKind) (items : List ι) :
    ofKind kindOf k (inOrder kindOf items) = ofKind kindOf k items := by
  rw [inOrder_eq, ofKind_append, ofKind_append]
  cases k <;> simp [ofKind_ofKind_self, ofKind_ofKind_of_ne]

/-- The order is decided by what there is of each kind, and decides it. -/
theorem inOrder_eq_inOrder_iff {items items' : List ι} :
    inOrder kindOf items = inOrder kindOf items' ↔ ∀ k, ofKind kindOf k items = ofKind kindOf k items' := by
  constructor
  · intro h k
    rw [← ofKind_inOrder, h, ofKind_inOrder]
  · intro h
    rw [inOrder_eq, inOrder_eq, h, h, h]

/-- Lists with the same of each kind differ by the places of their items. -/
theorem perm_of_ofKind {items items' : List ι} (h : ∀ k, ofKind kindOf k items = ofKind kindOf k items') :
    items.Perm items' := by
  have hsorted := (inOrder_perm kindOf items).symm
  rw [inOrder_eq_inOrder_iff.mpr h] at hsorted
  exact hsorted.trans (inOrder_perm kindOf items')

end BeamProcess

namespace Plant

variable {α : Type}

/-- The kind of the process under a number, as trackers list it. -/
def kindOf (p : Plant α) (number : Nat) : ProcessKind :=
  ((p.processes.get? number).map BeamProcess.kind).getD .diagnostic

theorem ofKind_processesOf (p : Plant α) (k : ProcessKind) (numbers : List Nat) :
    BeamProcess.ofKind BeamProcess.kind k (p.processesOf numbers) =
      p.processesOf (BeamProcess.ofKind p.kindOf k numbers) := by
  induction numbers with
  | nil => rfl
  | cons number rest ih =>
    unfold processesOf at ih ⊢
    cases hnumber : p.processes.get? number with
    | none =>
      rw [List.filterMap_cons_none hnumber, ih]
      by_cases hkind : p.kindOf number = k
      · rw [BeamProcess.ofKind_cons_self hkind, List.filterMap_cons_none hnumber]
      · rw [BeamProcess.ofKind_cons_of_ne hkind]
    | some q =>
      have hkindOf : p.kindOf number = q.kind := by rw [kindOf, hnumber]; rfl
      rw [List.filterMap_cons_some hnumber]
      by_cases hkind : q.kind = k
      · rw [BeamProcess.ofKind_cons_self hkind, BeamProcess.ofKind_cons_self (hkindOf.trans hkind),
          List.filterMap_cons_some hnumber, ih]
      · rw [BeamProcess.ofKind_cons_of_ne hkind, BeamProcess.ofKind_cons_of_ne (by rwa [hkindOf]), ih]

/-- Numbers in the order of the kinds they stand for name the processes in the order of their kinds. -/
theorem inOrder_processesOf (p : Plant α) (numbers : List Nat) :
    BeamProcess.inOrder BeamProcess.kind (p.processesOf numbers) =
      p.processesOf (BeamProcess.inOrder p.kindOf numbers) := by
  rw [BeamProcess.inOrder_eq, BeamProcess.inOrder_eq, ofKind_processesOf, ofKind_processesOf, ofKind_processesOf]
  simp only [processesOf, List.filterMap_append]

end Plant

namespace Pass

/-! ### Counts of steps -/

variable {α : Type} [Scalar α] {e : Element α}

/-- The most steps that any process asks for, none if there is no process; the first refusal if there is one. -/
def mostSteps (e : Element α) : List (BeamProcess α) → Except Fault Nat
  | [] => .ok 0
  | p :: rest => do
    let n ← p.requestedSteps e
    let m ← mostSteps e rest
    pure (max n m)

theorem foldl_max (n : Nat) (counts : List Nat) : counts.foldl max n = max n (counts.foldl max 0) := by
  induction counts generalizing n with
  | nil => simp
  | cons m rest ih => rw [List.foldl_cons, List.foldl_cons, ih (max n m), ih (max 0 m), Nat.zero_max, Nat.max_assoc]

theorem mostSteps_eq (e : Element α) (processes : List (BeamProcess α)) :
    mostSteps e processes = (·.foldl max 0) <$> processes.mapM fun p => p.requestedSteps e := by
  induction processes with
  | nil => rfl
  | cons p rest ih =>
    rw [mostSteps, ih, List.mapM_cons]
    cases p.requestedSteps e with
    | error fault => rfl
    | ok n =>
      cases rest.mapM fun p => p.requestedSteps e with
      | error fault => rfl
      | ok counts =>
        have hmax : max n (counts.foldl max 0) = (n :: counts).foldl max 0 := by
          rw [List.foldl_cons, Nat.zero_max, foldl_max n counts]
        exact congrArg Except.ok hmax

theorem stepCount_of_not_sliceable (h : e.sliceable = false) (processes : List (BeamProcess α)) :
    stepCount processes e = .ok 1 := by
  rw [stepCount, h]
  rfl

theorem stepCount_nil (e : Element α) : stepCount [] e = .ok 1 := by
  unfold stepCount
  split <;> rfl

theorem stepCount_cons (h : e.sliceable = true) (p : BeamProcess α) (rest : List (BeamProcess α)) :
    stepCount (p :: rest) e = mostSteps e (p :: rest) := by
  rw [stepCount, if_pos h, mostSteps_eq, List.mapM_cons]
  cases p.requestedSteps e with
  | error fault => rfl
  | ok n => cases rest.mapM fun p => p.requestedSteps e <;> rfl

/-- Counts of steps are told apart by the processes' requests, and by whether there are any. -/
theorem stepCount_congr {processes processes' : List (BeamProcess α)} (hempty : processes = [] ↔ processes' = [])
    (h : mostSteps e processes = mostSteps e processes') : stepCount processes e = stepCount processes' e := by
  cases hsliceable : e.sliceable with
  | false => rw [stepCount_of_not_sliceable hsliceable, stepCount_of_not_sliceable hsliceable]
  | true =>
    cases processes with
    | nil => rw [hempty.mp rfl]
    | cons p rest =>
      cases processes' with
      | nil => exact absurd (hempty.mpr rfl) (List.cons_ne_nil p rest)
      | cons p' rest' => rw [stepCount_cons hsliceable, stepCount_cons hsliceable, h]

theorem requestedSteps_of_kind_ne {p : BeamProcess α} (h : p.kind ≠ .radiation) (e : Element α) :
    p.requestedSteps e = .ok 1 := by
  cases p with
  | radiation r => exact absurd rfl h
  | ringDelta scale => rfl
  | finiteness detailed => rfl

/-- The radiation decides on the steps, or on the refusal; all other processes ask for one step. -/
theorem mostSteps_ofKind (e : Element α) (processes : List (BeamProcess α)) :
    mostSteps e processes =
      (max · (if ∀ p ∈ processes, p.kind = .radiation then 0 else 1)) <$>
        mostSteps e (BeamProcess.ofKind BeamProcess.kind .radiation processes) := by
  induction processes with
  | nil => rfl
  | cons p rest ih =>
    by_cases hkind : p.kind = .radiation
    · rw [BeamProcess.ofKind_cons_self hkind, mostSteps, mostSteps, ih]
      simp only [List.forall_mem_cons, hkind, true_and]
      cases p.requestedSteps e with
      | error fault => rfl
      | ok n =>
        cases mostSteps e (BeamProcess.ofKind BeamProcess.kind .radiation rest) with
        | error fault => rfl
        | ok m => exact congrArg Except.ok (Nat.max_assoc n m _).symm
    · rw [BeamProcess.ofKind_cons_of_ne hkind, mostSteps, ih, requestedSteps_of_kind_ne hkind]
      simp only [List.forall_mem_cons, hkind, false_and, if_false]
      cases mostSteps e (BeamProcess.ofKind BeamProcess.kind .radiation rest) with
      | error fault => rfl
      | ok m =>
        refine congrArg Except.ok ?_
        change max 1 (max m _) = max m 1
        split <;> omega

theorem mostSteps_congr {processes processes' : List (BeamProcess α)}
    (h : ∀ k, BeamProcess.ofKind BeamProcess.kind k processes = BeamProcess.ofKind BeamProcess.kind k processes')
    (e : Element α) : mostSteps e processes = mostSteps e processes' := by
  have hall : (∀ p ∈ processes, p.kind = .radiation) ↔ ∀ p ∈ processes', p.kind = .radiation :=
    ⟨fun hp p hmem => hp p ((BeamProcess.perm_of_ofKind h).mem_iff.mpr hmem),
      fun hp p hmem => hp p ((BeamProcess.perm_of_ofKind h).mem_iff.mp hmem)⟩
  rw [mostSteps_ofKind, mostSteps_ofKind e processes', h]
  simp only [hall]

theorem toOption_mostSteps_cons (e : Element α) (p : BeamProcess α) (rest : List (BeamProcess α)) :
    (mostSteps e (p :: rest)).toOption =
      (p.requestedSteps e).toOption.bind fun n => (mostSteps e rest).toOption.map (max n) := by
  rw [mostSteps]
  cases p.requestedSteps e with
  | error fault => rfl
  | ok n => cases mostSteps e rest <;> rfl

/-- Requests are met by as many steps in whatever order they are made; only which refusal comes first can change. -/
theorem toOption_mostSteps_perm {processes processes' : List (BeamProcess α)} (h : processes.Perm processes')
    (e : Element α) : (mostSteps e processes).toOption = (mostSteps e processes').toOption := by
  induction h with
  | nil => rfl
  | cons p _ ih => rw [toOption_mostSteps_cons, toOption_mostSteps_cons, ih]
  | swap p q rest =>
    simp only [toOption_mostSteps_cons]
    cases p.requestedSteps e <;> cases q.requestedSteps e <;> cases mostSteps e rest <;>
      simp [Except.toOption, Nat.max_left_comm]
  | trans _ _ ih ih' => exact ih.trans ih'

theorem toOption_stepCount_perm {processes processes' : List (BeamProcess α)} (h : processes.Perm processes')
    (e : Element α) : (stepCount processes e).toOption = (stepCount processes' e).toOption := by
  cases hsliceable : e.sliceable with
  | false => rw [stepCount_of_not_sliceable hsliceable, stepCount_of_not_sliceable hsliceable]
  | true =>
    cases processes with
    | nil => rw [List.nil_perm.mp h]
    | cons p rest =>
      cases processes' with
      | nil => exact absurd (List.perm_nil.mp h) (List.cons_ne_nil p rest)
      | cons p' rest' =>
        rw [stepCount_cons hsliceable, stepCount_cons hsliceable]
        exact toOption_mostSteps_perm h e

/-! ### Attached processes of the same kinds in the same order -/

variable {processes processes' : List (BeamProcess α)}

theorem stepCount_of_ofKind
    (h : ∀ k, BeamProcess.ofKind BeamProcess.kind k processes = BeamProcess.ofKind BeamProcess.kind k processes')
    (e : Element α) : stepCount processes e = stepCount processes' e := by
  apply stepCount_congr _ (mostSteps_congr h e)
  constructor
  · rintro rfl
    exact List.nil_perm.mp (BeamProcess.perm_of_ofKind h)
  · rintro rfl
    exact List.perm_nil.mp (BeamProcess.perm_of_ofKind h)

theorem throughElement_of_ofKind
    (h : ∀ k, BeamProcess.ofKind BeamProcess.kind k processes = BeamProcess.ofKind BeamProcess.kind k processes')
    (e : Element α) : throughElement processes e = throughElement processes' e := by
  unfold throughElement
  rw [stepCount_of_ofKind h, BeamProcess.inOrder_eq_inOrder_iff.mpr h]

theorem throughLine_of_ofKind
    (h : ∀ k, BeamProcess.ofKind BeamProcess.kind k processes = BeamProcess.ofKind BeamProcess.kind k processes')
    (index : Nat) (elements : List (Element α)) :
    throughLine processes index elements = throughLine processes' index elements := by
  induction elements generalizing index with
  | nil => rfl
  | cons e rest ih => rw [throughLine, throughLine, throughElement_of_ofKind h, ih]

end Pass

end BeamOptics
