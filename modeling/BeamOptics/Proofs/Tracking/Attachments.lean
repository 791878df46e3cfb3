import BeamOptics.Proofs.ClosedOrbit.Frame
import BeamOptics.Proofs.Tracking.ProcessOrder

/-!
# Attachments

Processes are attached behind all others, and what is detached is the first attachment of a process. Whatever was
attached and detached on the way, two trackers with the same processes of each kind in the same order cannot be told
apart by tracking.
-/

namespace BeamOptics

namespace Plant

variable {α : Type}

/-! ### Plants with one log or another -/

theorem processes_of_unlogged {p p' : Plant α} (h : p.unlogged = p'.unlogged) : p.processes = p'.processes := by
  change p.unlogged.processes = p'.unlogged.processes
  rw [h]

theorem kindOf_of_unlogged {p p' : Plant α} (h : p.unlogged = p'.unlogged) : p.kindOf = p'.kindOf := by
  funext number
  rw [kindOf, kindOf, processes_of_unlogged h]

theorem processesOf_of_unlogged {p p' : Plant α} (h : p.unlogged = p'.unlogged) : p.processesOf = p'.processesOf := by
  funext numbers
  rw [processesOf, processesOf, processes_of_unlogged h]

theorem unlogged_note_congr {p p' : Plant α} (h : p.unlogged = p'.unlogged) (n n' : Note α) :
    (p.note n).unlogged = (p'.note n').unlogged := by
  rw [unlogged_note, unlogged_note, h]

theorem unlogged_record_congr {p p' : Plant α} (h : p.unlogged = p'.unlogged) (number : Nat) (event : Event α) :
    (p.record number event).unlogged = (p'.record number event).unlogged := by
  change (p.unlogged.record number event).unlogged = (p'.unlogged.record number event).unlogged
  rw [h]

theorem unlogged_tell_congr {p p' : Plant α} (h : p.unlogged = p'.unlogged) (tracker : String) (event : Event α)
    (o : Observer) : (p.tell tracker event o).unlogged = (p'.tell tracker event o).unlogged := by
  cases o with
  | logger => exact unlogged_note_congr h _ _
  | recorder number => exact unlogged_record_congr h number event
  | failing number =>
    cases event with
    | start journey => exact unlogged_note_congr h _ _
    | complete journey momentum => exact unlogged_record_congr h number _
    | error journey index fault => exact unlogged_record_congr h number _

theorem unlogged_tellAll_congr {p p' : Plant α} (h : p.unlogged = p'.unlogged) (tracker : String)
    (observers : List Observer) (event : Event α) :
    (p.tellAll tracker observers event).unlogged = (p'.tellAll tracker observers event).unlogged := by
  induction observers generalizing p p' with
  | nil => exact h
  | cons o rest ih => exact ih (unlogged_tell_congr h tracker event o)

end Plant

/-- The tracker but for its attachments. -/
def Tracker.unladen {α : Type} (t : Tracker α) : Tracker α := { t with processes := [] }

namespace Ride

variable {α : Type}

/-- Rides of one bunch, where the plants differ in nothing but the log and hold the given processes. -/
structure Alike (processes : Table Nat (BeamProcess α)) (ride ride' : Ride α) : Prop where
  bunch : ride.bunch = ride'.bunch
  plant : ride.plant.unlogged = ride'.plant.unlogged
  processes : ride.plant.processes = processes

variable {processes : Table Nat (BeamProcess α)}

theorem Alike.processesOf {ride ride' : Ride α} (h : Alike processes ride ride') {p : Plant α}
    (hp : p.processes = processes) :
    ride.plant.processesOf = p.processesOf ∧ ride'.plant.processesOf = p.processesOf := by
  have hfirst : ride.plant.processesOf = p.processesOf := by
    funext numbers
    rw [Plant.processesOf, Plant.processesOf, h.processes, hp]
  exact ⟨hfirst, (Plant.processesOf_of_unlogged h.plant).symm.trans hfirst⟩

theorem agree_tellAll {t t' : Tracker α} (hname : t.name = t'.name) (hobservers : t.observers = t'.observers)
    {event event' : Ride α → Event α} (hevent : ∀ ride ride', Alike processes ride ride' → event ride = event' ride') :
    Action.Agree (Alike processes) (tellAll t event) (tellAll t' event') := by
  apply Action.agree_update
  intro ride ride' h
  rw [hname, hobservers, hevent ride ride' h]
  refine ⟨h.bunch, Plant.unlogged_tellAll_congr h.plant t'.name t'.observers _, ?_⟩
  have hfixtures := Plant.fixtures_of_apart (ride.plant.apart_tellAll [] t'.name t'.observers (event' ride'))
  exact (congrArg Prod.snd hfixtures).trans h.processes

theorem agree_noteAll (notes : List (Note α)) : Action.Agree (Alike processes) (noteAll notes) (noteAll notes) := by
  apply Action.agree_update
  intro ride ride' h
  have hfirst := ride.plant.unlogged_noteAll notes
  refine ⟨h.bunch, hfirst.trans (h.plant.trans (ride'.plant.unlogged_noteAll notes).symm), ?_⟩
  exact (Plant.processes_of_unlogged hfirst).trans h.processes

theorem agree_onPass {ε β : Type} (a : Action ε (Pass α) β) :
    Action.Agree (Alike processes) (onPass a) (onPass a) := by
  apply Action.agree_focus
  · intro ride ride' h
    have hsignals : ride.plant.signals = ride'.plant.signals := by
      change ride.plant.unlogged.signals = ride'.plant.unlogged.signals
      rw [h.plant]
    rw [h.bunch, hsignals]
  · intro pass ride ride' h
    refine ⟨rfl, ?_, h.processes⟩
    change { ride.plant.unlogged with signals := pass.signals } = { ride'.plant.unlogged with signals := pass.signals }
    rw [h.plant]

variable [Scalar α]

/-- Trackers that differ in the attached processes alone take a bunch the same way, if the processes of each kind are
attached in the same order. -/
theorem agree_track {t t' : Tracker α} (ht : t.unladen = t'.unladen) {p : Plant α}
    (h : ∀ k, BeamProcess.ofKind p.kindOf k t.processes = BeamProcess.ofKind p.kindOf k t'.processes) :
    Action.Agree (Alike p.processes) (track t) (track t') := by
  have hname : t.name = t'.name := (congrArg Tracker.name ht :)
  have hobservers : t.observers = t'.observers := (congrArg Tracker.observers ht :)
  have hrange : t.requireRange = t'.requireRange := (congrArg Tracker.requireRange ht :)
  have hkinds (k : ProcessKind) : BeamProcess.ofKind BeamProcess.kind k (p.processesOf t.processes) =
      BeamProcess.ofKind BeamProcess.kind k (p.processesOf t'.processes) := by
    rw [Plant.ofKind_processesOf, Plant.ofKind_processesOf, h]
  unfold track
  rw [hrange]
  refine (Action.agree_lift _).bind fun r => ?_
  refine Action.Agree.bind (Action.agree_ask fun ride ride' hride => ?_) fun journey => ?_
  · rw [hname, Bunch.size, Bunch.size, hride.bunch]
  refine (agree_tellAll hname hobservers fun _ _ _ => rfl).bind fun _ => ?_
  apply Action.agree_ask_bind
  intro ride ride' hride
  obtain ⟨hfirst, hsecond⟩ := hride.processesOf rfl
  rw [hfirst, hsecond, Pass.throughLine_of_ofKind hkinds]
  refine (agree_onPass _).outcome.bind fun result => ?_
  cases result with
  | ok _ => exact agree_tellAll hname hobservers fun ride ride' hride => by rw [hride.bunch]
  | error failure =>
    refine (agree_noteAll _).bind fun _ => ?_
    exact (agree_tellAll hname hobservers fun _ _ _ => rfl).bind fun _ => Action.agree_throw _

end Ride

namespace Station

variable {α : Type}

/-! ### Trackers with the same of each kind -/

/-- Numbers of the attached processes in the order in which these act. -/
def order (s : Station α) : List Nat := BeamProcess.inOrder s.plant.kindOf s.tracker.processes

/-- What is attached of one kind. -/
def attachedOf (k : ProcessKind) (s : Station α) : List Nat :=
  BeamProcess.ofKind s.plant.kindOf k s.tracker.processes

/-- Nothing but the log, and the places of attached processes of different kinds, tells the stations apart. -/
structure Alike (s s' : Station α) : Prop where
  plant : s.plant.unlogged = s'.plant.unlogged
  tracker : s.tracker.unladen = s'.tracker.unladen
  attachedOf : ∀ k, s.attachedOf k = s'.attachedOf k

namespace Alike

variable {s s' : Station α}

theorem ofKind (h : Alike s s') (k : ProcessKind) :
    BeamProcess.ofKind s.plant.kindOf k s.tracker.processes =
      BeamProcess.ofKind s.plant.kindOf k s'.tracker.processes :=
  (h.attachedOf k).trans (by rw [Station.attachedOf, Plant.kindOf_of_unlogged h.plant])

theorem order_eq (h : Alike s s') : s.order = s'.order := by
  rw [order, order, ← Plant.kindOf_of_unlogged h.plant]
  exact BeamProcess.inOrder_eq_inOrder_iff.mpr h.ofKind

theorem ofKind_processesOf (h : Alike s s') (k : ProcessKind) :
    BeamProcess.ofKind BeamProcess.kind k (s.plant.processesOf s.tracker.processes) =
      BeamProcess.ofKind BeamProcess.kind k (s'.plant.processesOf s'.tracker.processes) := by
  rw [← Plant.processesOf_of_unlogged h.plant, Plant.ofKind_processesOf, Plant.ofKind_processesOf, h.ofKind]

/-- Stations stay alike when they come to differ in nothing else. -/
theorem update (h : Alike s s') {p p' : Plant α} (hplant : p.unlogged = p'.unlogged)
    (hkinds : p.kindOf = s.plant.kindOf) {t t' : Tracker α} (htracker : t.unladen = t'.unladen)
    (hprocesses : t.processes = s.tracker.processes) (hprocesses' : t'.processes = s'.tracker.processes) :
    Alike ⟨t, p⟩ ⟨t', p'⟩ := by
  refine ⟨hplant, htracker, fun k => ?_⟩
  change BeamProcess.ofKind p.kindOf k t.processes = BeamProcess.ofKind p'.kindOf k t'.processes
  rw [← Plant.kindOf_of_unlogged hplant, hkinds, hprocesses, hprocesses', h.ofKind]

end Alike

theorem agree_setRange (r : Range α) : Action.Agree Alike (setRange r) (setRange r) := by
  intro s s' h
  have hnote (n : Note α) := s.plant.unlogged_note n
  refine ⟨rfl, h.update (Plant.unlogged_note_congr h.plant _ _) (Plant.kindOf_of_unlogged (hnote _)) ?_ rfl rfl⟩
  exact congrArg (fun t : Tracker α => { t with range := some r, stepper := none }) h.tracker

variable [Scalar α]

/-- Steps into which the attached processes split an element. -/
def stepCount (s : Station α) (e : Element α) : Except Fault Nat :=
  Pass.stepCount (s.plant.processesOf s.tracker.processes) e

theorem agree_trackBunch (b : Bunch α) : Action.Agree Alike (trackBunch b) (trackBunch b) := by
  intro s s' h
  obtain ⟨hresult, hride⟩ :=
    Ride.agree_track h.tracker h.ofKind ⟨b, s.plant⟩ ⟨b, s'.plant⟩ ⟨rfl, h.plant, rfl⟩
  rw [run_trackBunch, run_trackBunch, hresult, hride.bunch]
  refine ⟨rfl, h.update hride.plant ?_ h.tracker rfl rfl⟩
  funext number
  rw [Plant.kindOf, hride.processes, Plant.kindOf]

end Station

/-! ### Histories -/

inductive AttachmentRequest
  | add (number : Nat)
  | remove (number : Nat)

namespace AttachmentRequest

variable {α : Type}

def serve : AttachmentRequest → Action Fault (Station α) Unit
  | add number => Station.attach number
  | remove number => Station.detach number

def serveAll : List AttachmentRequest → Action Fault (Station α) Unit
  | [] => pure ()
  | request :: rest => do
    serve request
    serveAll rest

/-- What a request makes of the numbers of the attached processes. -/
def amend (attached : List Nat) : AttachmentRequest → List Nat
  | add number => attached ++ [number]
  | remove number => attached.erase number

theorem run_serve (request : AttachmentRequest) (s : Station α) :
    ∃ s', (serve request).run s = (.ok (), s') ∧ s'.plant.unlogged = s.plant.unlogged ∧
      s'.tracker = { s.tracker with processes := amend s.tracker.processes request } := by
  cases request with
  | add number => exact Station.run_attach number s
  | remove number => exact Station.run_detach number s

/-- No request is refused, and requests have a hand in the attachments and the log alone. -/
theorem run_serveAll (requests : List AttachmentRequest) (s : Station α) :
    ∃ s', (serveAll requests).run s = (.ok (), s') ∧ s'.plant.unlogged = s.plant.unlogged ∧
      s'.tracker = { s.tracker with processes := requests.foldl amend s.tracker.processes } := by
  induction requests generalizing s with
  | nil => exact ⟨s, rfl, rfl, rfl⟩
  | cons request rest ih =>
    obtain ⟨s₁, hrun₁, hplant₁, htracker₁⟩ := run_serve request s
    obtain ⟨s₂, hrun₂, hplant₂, htracker₂⟩ := ih s₁
    refine ⟨s₂, ?_, hplant₂.trans hplant₁, ?_⟩
    · rw [serveAll, Action.run_bind_of_ok hrun₁, hrun₂]
    · rw [htracker₂, htracker₁, List.foldl_cons]

end AttachmentRequest

namespace Station

variable {α : Type}

/-- The station after a history of requests. -/
def after (requests : List AttachmentRequest) (s : Station α) : Station α :=
  ((AttachmentRequest.serveAll requests).run s).2

theorem processes_after (requests : List AttachmentRequest) (s : Station α) :
    (s.after requests).tracker.processes = requests.foldl AttachmentRequest.amend s.tracker.processes := by
  obtain ⟨s', hrun, -, htracker⟩ := AttachmentRequest.run_serveAll requests s
  rw [after, hrun, htracker]

theorem unlogged_after (requests : List AttachmentRequest) (s : Station α) :
    (s.after requests).plant.unlogged = s.plant.unlogged := by
  obtain ⟨s', hrun, hplant, -⟩ := AttachmentRequest.run_serveAll requests s
  rw [after, hrun, hplant]

theorem unladen_after (requests : List AttachmentRequest) (s : Station α) :
    (s.after requests).tracker.unladen = s.tracker.unladen := by
  obtain ⟨s', hrun, -, htracker⟩ := AttachmentRequest.run_serveAll requests s
  rw [after, hrun, htracker]
  rfl

theorem kindOf_after (requests : List AttachmentRequest) (s : Station α) :
    (s.after requests).plant.kindOf = s.plant.kindOf :=
  Plant.kindOf_of_unlogged (unlogged_after requests s)

theorem alike_after {s : Station α} {first second : List AttachmentRequest}
    (h : ∀ k, (s.after first).attachedOf k = (s.after second).attachedOf k) :
    Alike (s.after first) (s.after second) where
  plant := (unlogged_after first s).trans (unlogged_after second s).symm
  tracker := (unladen_after first s).trans (unladen_after second s).symm
  attachedOf := h

variable [Scalar α]

/-- Two histories of attaching and detaching that leave the same processes of each kind in the same order come to the
same: the processes act in one order, they split every element into as many steps, and a bunch has the same outcome in
every range. The order is that of the kinds, and within a kind that of attachment. -/
theorem attachment_order_matters_within_kinds_only (s : Station α) (first second : List AttachmentRequest)
    (h : ∀ k, (s.after first).attachedOf k = (s.after second).attachedOf k) :
    (s.after first).order = (s.after second).order ∧
    (∀ requests, (s.after requests).order.Perm (s.after requests).tracker.processes ∧
      ((s.after requests).order.Pairwise fun m n =>
        ((s.after requests).plant.kindOf m).rank ≤ ((s.after requests).plant.kindOf n).rank) ∧
      (∀ k, BeamProcess.ofKind (s.after requests).plant.kindOf k (s.after requests).order =
        (s.after requests).attachedOf k) ∧
      (s.after requests).plant.processesOf (s.after requests).order =
        BeamProcess.inOrder BeamProcess.kind ((s.after requests).plant.processesOf
          (s.after requests).tracker.processes)) ∧
    (∀ e, (s.after first).stepCount e = (s.after second).stepCount e) ∧
    ∀ r b,
      ((do setRange r; trackBunch b : Action Fault (Station α) _).run (s.after first)).1 =
        ((do setRange r; trackBunch b : Action Fault (Station α) _).run (s.after second)).1 ∧
      ((do setRange r; trackBunch b : Action Fault (Station α) _).run (s.after first)).2.plant.unlogged =
        ((do setRange r; trackBunch b : Action Fault (Station α) _).run (s.after second)).2.plant.unlogged := by
  have halike := alike_after h
  refine ⟨halike.order_eq, ?_, ?_, ?_⟩
  · intro requests
    refine ⟨BeamProcess.inOrder_perm _ _, BeamProcess.pairwise_inOrder _ _, ?_, ?_⟩
    · intro k
      exact BeamProcess.ofKind_inOrder k _
    · exact (Plant.inOrder_processesOf _ _).symm
  · intro e
    exact Pass.stepCount_of_ofKind halike.ofKind_processesOf e
  · intro r b
    obtain ⟨houtcome, hafter⟩ := ((agree_setRange r).bind fun _ => agree_trackBunch b) _ _ halike
    exact ⟨houtcome, hafter.plant⟩

end Station

namespace ThreeProcesses

/-! ### Three processes -/

/-- A check under 1, between two processes that lengthen the path. -/
def station : Station Float where
  tracker := { }
  plant := { processes :=
    ((Table.empty.insert 0 (.ringDelta 1)).insert 1 (.finiteness false)).insert 2 (.ringDelta 2) }

def direct : List AttachmentRequest := [.add 1, .add 0, .add 2]

def roundabout : List AttachmentRequest := [.add 0, .add 0, .add 1, .add 2, .remove 0]

theorem attachments_of_direct_and_roundabout :
    (station.after direct).tracker.processes = [1, 0, 2] ∧ (station.after roundabout).tracker.processes = [0, 1, 2] ∧
    (station.after direct).order = [0, 2, 1] ∧ (station.after roundabout).order = [0, 2, 1] ∧
    ∀ r b, ((do Station.setRange r; Station.trackBunch b : Action Fault (Station Float) _).run
        (station.after direct)).1 =
      ((do Station.setRange r; Station.trackBunch b : Action Fault (Station Float) _).run
        (station.after roundabout)).1 := by
  have hattached (k : ProcessKind) :
      (station.after direct).attachedOf k = (station.after roundabout).attachedOf k := by
    rw [Station.attachedOf, Station.attachedOf, Station.processes_after, Station.processes_after,
      Station.kindOf_after, Station.kindOf_after]
    cases k <;> decide
  have hdirect : (station.after direct).order = [0, 2, 1] := by
    rw [Station.order, Station.processes_after, Station.kindOf_after]
    decide
  obtain ⟨horder, -, -, htrack⟩ :=
    Station.attachment_order_matters_within_kinds_only station direct roundabout hattached
  exact ⟨Station.processes_after direct station, Station.processes_after roundabout station, hdirect,
    horder.symm.trans hdirect, fun r b => (htrack r b).1⟩

end ThreeProcesses

end BeamOptics
