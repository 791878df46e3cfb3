import BeamOptics.Proofs.Lattice.Growth
import BeamOptics.Proofs.Session.Basic

/-!
# Lines of a session

Callers make lines and add to them. A request that is refused leaves the lines as they were, and one that is granted
makes one line or one addition. So the lines of a session are well formed at any time, and what was obtained from a
line denotes the same elements for good.
-/

namespace BeamOptics

/-- A request that makes a line or adds to one. -/
inductive LineRequest where
  | create (as : Option String) (name : String) (members : List MemberChoice) (sources : List SourceChoice)
  | addElement (on : String) (choice : MemberChoice)
  | addSource (on : String) (choice : SourceChoice)

namespace Session

def lineWork : LineRequest → Work Unit
  | .create as name members sources => do
    let _ ← createModel as name members sources
  | .addElement on choice => do
    let _ ← addElement on choice
  | .addSource on choice => do
    let _ ← addSource on choice

/-! ### What requests look up and make -/

/-- All of a session but the count of elements made. -/
def apartFromCount (s : Session) : Session := { s with elements := 0 }

theorem keeps_makeElement (d : ElementDraft Float) : (makeElement d).Keeps apartFromCount := by
  refine (Action.keeps_ask _).bind fun tag => ?_
  refine (Action.keeps_lift _).bind fun e => ?_
  refine Action.Keeps.bind (Action.keeps_modify ?_) fun _ => Action.keeps_pure _
  exact fun _ => rfl

theorem keeps_memberOf (choice : MemberChoice) : (memberOf choice).Keeps apartFromCount := by
  cases choice with
  | described d => exact (keeps_makeElement d).bind fun _ => Action.keeps_pure _
  | named name =>
    refine (keeps_handle name).of_id.outcome.bind fun found => ?_
    cases found <;> exact Action.keeps_pure _
  | foreign => exact Action.keeps_pure _

theorem keeps_source (choice : SourceChoice) : (source choice).Keeps id := by
  cases choice with
  | described name indexes => exact Action.keeps_lift _
  | named name => exact keeps_pick _ name

theorem keeps_modelNumber (on : String) : (modelNumber on).Keeps id := keeps_pick _ on

/-! ### What requests do to the lines -/

/-- The lines after one line more, or after one addition to one of them. -/
inductive LinesGrow (lines : Table Nat (Model Float)) : Table Nat (Model Float) → Prop
  | made (number : Nat) (m : Model Float) (hnew : lines.get? number = none) (hm : m.WellFormed) :
    LinesGrow lines (lines.insert number m)
  | added (number : Nat) (m m' : Model Float) (hm : lines.get? number = some m) (hadds : m.Adds m') :
    LinesGrow lines (lines.insert number m')

/-- Work that lets the lines grow if it succeeds, and leaves everything but the count of elements if it fails. -/
def GrowsLines {β : Type} (a : Work β) : Prop :=
  ∀ s, match (a.run s).1 with
    | .ok _ => LinesGrow s.models (a.run s).2.models
    | .error _ => (a.run s).2.apartFromCount = s.apartFromCount

namespace GrowsLines

variable {β γ : Type}

theorem throw (fault : Fault) : GrowsLines (throw fault : Work β) := fun _ => rfl

theorem lift_bind {r : Except Fault β} {f : β → Work γ} (hf : ∀ b, r = .ok b → GrowsLines (f b)) :
    GrowsLines (Action.lift r >>= f) := by
  cases r with
  | error fault => exact fun s => rfl
  | ok b => exact hf b rfl

/-- What only looks up or makes elements can come before. -/
theorem of_keeps {a : Work β} {f : β → Work γ} (ha : a.Keeps apartFromCount) (hf : ∀ b, GrowsLines (f b)) :
    GrowsLines (a >>= f) := by
  intro s
  rcases hrun : a.run s with ⟨fault | b, s₁⟩
  · rw [Action.run_bind_of_error hrun]
    exact ha.of_run hrun
  · have hbefore := ha.of_run hrun
    have hlines : s₁.models = s.models := (congrArg models hbefore : s₁.apartFromCount.models = _)
    have hrest := hf b s₁
    rw [hbefore, hlines] at hrest
    rw [Action.run_bind_of_ok hrun]
    exact hrest

/-- What has no hand in the lines and cannot fail can come after. -/
theorem then_pure {a : Work β} (ha : GrowsLines a) (f : β → γ) : GrowsLines (a >>= fun b => pure (f b)) := by
  intro s
  have hs := ha s
  rcases hrun : a.run s with ⟨fault | b, s₁⟩ <;> rw [hrun] at hs
  · rw [Action.run_bind_of_error hrun]
    exact hs
  · rw [Action.run_bind_of_ok hrun]
    exact hs

theorem put {number : Nat} {grow : Model Float → Except Fault (Model Float)}
    (hgrow : ∀ m m', grow m = .ok m' → m.Adds m') (f : Model Float → β) :
    GrowsLines (do
      let m ← entry models number
      let m ← Action.lift (grow m)
      putModel number m
      pure (f m)) := by
  intro s
  cases hm : s.models.get? number with
  | none =>
    rw [Action.run_bind_of_error (run_entry_of_none hm)]
  | some m =>
    rw [Action.run_bind_of_ok (run_entry hm)]
    cases hadded : grow m with
    | error fault => rfl
    | ok m' => exact .added number m m' hm (hgrow m m' hadded)

end GrowsLines

theorem growsLines_createModel (as : Option String) (name : String) (members : List MemberChoice)
    (sources : List SourceChoice) : GrowsLines (createModel as name members sources) := by
  refine .of_keeps (.mapM keeps_memberOf members) fun members => ?_
  refine .of_keeps (.mapM (fun choice => (keeps_source choice).of_id) sources) fun sources => ?_
  refine .lift_bind fun m hm => fun s => ?_
  have hgrown := LinesGrow.made s.models.fresh m s.models.get?_fresh (Model.build_eq_ok_iff.mp hm).2.2.1
  cases as <;> exact hgrown

theorem growsLines_addElement (on : String) (choice : MemberChoice) : GrowsLines (addElement on choice) := by
  refine .of_keeps (keeps_modelNumber on).of_id fun number => ?_
  refine .of_keeps (keeps_memberOf choice) fun member => ?_
  cases member with
  | none => exact .throw _
  | some e => exact .put (fun m m' h => .element e h) _

theorem growsLines_addSource (on : String) (choice : SourceChoice) : GrowsLines (addSource on choice) := by
  refine .of_keeps (keeps_modelNumber on).of_id fun number => ?_
  refine .of_keeps (keeps_source choice).of_id fun s => ?_
  exact .put (fun m m' h => .source s h) _

theorem growsLines_lineWork (q : LineRequest) : GrowsLines (lineWork q) := by
  cases q with
  | create as name members sources => exact (growsLines_createModel as name members sources).then_pure _
  | addElement on choice => exact (growsLines_addElement on choice).then_pure _
  | addSource on choice => exact (growsLines_addSource on choice).then_pure _

/-! ### What requests leave alone -/

/-- All of a session but lines, names and the count of elements made. -/
def besideLines (s : Session) : Session := { s with models := .empty, names := .empty, elements := 0 }

theorem keeps_besideLines {β : Type} {a : Work β} (ha : a.Keeps apartFromCount) : a.Keeps besideLines :=
  ha.of_view fun _ _ h => (congrArg besideLines h :)

theorem keeps_bindIf (name : Option String) (h : Handle) : (bindIf name h).Keeps besideLines := by
  cases name <;> exact fun _ => rfl

theorem keeps_putModel (number : Nat) (m : Model Float) : (putModel number m).Keeps besideLines := fun _ => rfl

theorem keeps_createModel (as : Option String) (name : String) (members : List MemberChoice)
    (sources : List SourceChoice) : (createModel as name members sources).Keeps besideLines := by
  refine (Action.Keeps.mapM (fun choice => keeps_besideLines (keeps_memberOf choice)) members).bind fun members => ?_
  refine (Action.Keeps.mapM (fun choice => (keeps_source choice).of_id) sources).bind fun sources => ?_
  refine (Action.keeps_lift _).bind fun m => ?_
  refine (Action.keeps_ask _).bind fun number => ?_
  refine (keeps_putModel number m).bind fun _ => ?_
  exact (keeps_bindIf as _).bind fun _ => Action.keeps_pure _

/-- Looking a line up, changing it and putting it back has no hand in the rest. -/
theorem keeps_put {β : Type} (number : Nat) (grow : Model Float → Except Fault (Model Float)) (f : Model Float → β) :
    Action.Keeps besideLines (do
      let m ← entry models number
      let m ← Action.lift (grow m)
      putModel number m
      pure (f m)) := by
  refine (keeps_entry models number).of_id.bind fun m => ?_
  refine (Action.keeps_lift _).bind fun m => ?_
  exact (keeps_putModel number m).bind fun _ => Action.keeps_pure _

theorem keeps_addElement (on : String) (choice : MemberChoice) : (addElement on choice).Keeps besideLines := by
  refine (keeps_modelNumber on).of_id.bind fun number => ?_
  refine (keeps_besideLines (keeps_memberOf choice)).bind fun member => ?_
  cases member with
  | none => exact Action.keeps_throw _
  | some e => exact keeps_put number _ _

theorem keeps_addSource (on : String) (choice : SourceChoice) : (addSource on choice).Keeps besideLines := by
  refine (keeps_modelNumber on).of_id.bind fun number => ?_
  refine (keeps_source choice).of_id.bind fun s => ?_
  exact keeps_put number _ _

theorem keeps_lineWork (q : LineRequest) : (lineWork q).Keeps besideLines := by
  cases q with
  | create as name members sources =>
    exact (keeps_createModel as name members sources).bind fun _ => Action.keeps_pure _
  | addElement on choice => exact (keeps_addElement on choice).bind fun _ => Action.keeps_pure _
  | addSource on choice => exact (keeps_addSource on choice).bind fun _ => Action.keeps_pure _

/-! ### Members that are no elements -/

/-- Whatever the request gives as a member of a line is an element. -/
def OnlyElements (s : Session) : LineRequest → Prop
  | .create _ _ members _ => ∃ given, ((members.mapM memberOf).run s).1 = .ok given ∧ none ∉ given
  | .addElement _ choice => ∃ e, ((memberOf choice).run s).1 = .ok (some e)
  | .addSource .. => True

theorem onlyElements_of_granted {s : Session} {q : LineRequest} (h : ((lineWork q).run s).1 = .ok ()) :
    s.OnlyElements q := by
  have hrun := Action.run_eq_of_fst h
  cases q with
  | create as name members sources =>
    obtain ⟨_, _, hrun, -⟩ := Action.exists_of_run_bind hrun
    obtain ⟨given, s₁, hgiven, hrun⟩ := Action.exists_of_run_bind hrun
    obtain ⟨driving, s₂, -, hrun⟩ := Action.exists_of_run_bind hrun
    obtain ⟨m, hm, -⟩ := Action.exists_of_run_lift_bind hrun
    obtain ⟨-, rfl, -⟩ := Model.build_eq_ok_iff.mp hm
    exact ⟨_, congrArg Prod.fst hgiven, by simp⟩
  | addElement on choice =>
    obtain ⟨_, _, hrun, -⟩ := Action.exists_of_run_bind hrun
    obtain ⟨number, s₁, hnumber, hrun⟩ := Action.exists_of_run_bind hrun
    obtain ⟨member, s₂, hmember, hrun⟩ := Action.exists_of_run_bind hrun
    obtain rfl : s₁ = s := (keeps_modelNumber on).of_run hnumber
    cases member with
    | none => cases hrun
    | some e => exact ⟨e, congrArg Prod.fst hmember⟩
  | addSource on choice => trivial

/-! ### Sessions under line requests -/

/-- The sessions that line requests lead to, with any work in between that has no hand in the lines. -/
inductive LeadsTo (s : Session) : Session → Prop
  | refl : LeadsTo s s
  | line {s' : Session} (h : LeadsTo s s') (q : LineRequest) : LeadsTo s ((lineWork q).run s').2
  | beside {s' s'' : Session} (h : LeadsTo s s') (hlines : s''.models = s'.models) : LeadsTo s s''

/-- Each line is well formed. -/
def LinesWellFormed (lines : Table Nat (Model Float)) : Prop := ∀ number m, lines.get? number = some m → m.WellFormed

theorem LinesGrow.wellFormed {lines lines' : Table Nat (Model Float)} (h : LinesGrow lines lines')
    (hlines : LinesWellFormed lines) : LinesWellFormed lines' := by
  intro number m hm
  cases h with
  | made number' m' hnew hm' =>
    rw [Table.get?_insert] at hm
    split at hm
    · obtain rfl := Option.some.inj hm
      exact hm'
    · exact hlines number m hm
  | added number' m₁ m' hm₁ hadds =>
    rw [Table.get?_insert] at hm
    split at hm
    · obtain rfl := Option.some.inj hm
      exact (hlines _ _ hm₁).adds hadds
    · exact hlines number m hm

theorem LinesGrow.grownTo {lines lines' : Table Nat (Model Float)} (h : LinesGrow lines lines') {number : Nat}
    {m : Model Float} (hm : lines.get? number = some m) : ∃ m', lines'.get? number = some m' ∧ m.GrownTo m' := by
  cases h with
  | made number' m' hnew hm' =>
    rw [Table.get?_insert]
    split
    · rename_i hsame
      rw [← hsame, hnew] at hm
      cases hm
    · exact ⟨m, hm, .refl m⟩
  | added number' m₁ m' hm₁ hadds =>
    rw [Table.get?_insert]
    split
    · rename_i hsame
      obtain rfl : m₁ = m := Option.some.inj (hm₁.symm.trans (hsame ▸ hm))
      exact ⟨m', rfl, hadds.grownTo⟩
    · exact ⟨m, hm, .refl m⟩

theorem lines_after (q : LineRequest) (s : Session) :
    ((lineWork q).run s).2.models = s.models ∨ LinesGrow s.models ((lineWork q).run s).2.models := by
  have hgrows := growsLines_lineWork q s
  split at hgrows
  · exact .inr hgrows
  · exact .inl (congrArg models hgrows : ((lineWork q).run s).2.apartFromCount.models = _)

theorem LeadsTo.wellFormed {s s' : Session} (h : LeadsTo s s') (hs : LinesWellFormed s.models) :
    LinesWellFormed s'.models := by
  induction h with
  | refl => exact hs
  | line _ q ih =>
    rcases lines_after q _ with hsame | hgrown
    · rw [hsame]
      exact ih
    · exact hgrown.wellFormed ih
  | beside _ hlines ih =>
    rw [hlines]
    exact ih

theorem LeadsTo.grownTo {s s' : Session} (h : LeadsTo s s') {number : Nat} {m : Model Float}
    (hm : s.models.get? number = some m) : ∃ m', s'.models.get? number = some m' ∧ m.GrownTo m' := by
  induction h with
  | refl => exact ⟨m, hm, .refl m⟩
  | line _ q ih =>
    obtain ⟨m₁, hm₁, hgrown₁⟩ := ih
    rcases lines_after q _ with hsame | hgrown
    · rw [hsame]
      exact ⟨m₁, hm₁, hgrown₁⟩
    · obtain ⟨m₂, hm₂, hgrown₂⟩ := hgrown.grownTo hm₁
      exact ⟨m₂, hm₂, hgrown₁.trans hgrown₂⟩
  | beside _ hlines ih =>
    rw [hlines]
    exact ih

/-! ### What is obtained from lines -/

theorem exists_line {β : Type} {on : String} {f : Model Float → Except Fault β} {s : Session} {b : β}
    (h : ((model on >>= fun m => Action.lift (f m)).run s).1 = .ok b) :
    ∃ number m, s.models.get? number = some m ∧ f m = .ok b := by
  obtain ⟨m, s₁, hm, hb⟩ := Action.exists_of_run_bind (Action.run_eq_of_fst h)
  obtain ⟨number, s₂, hnumber, hentry⟩ := Action.exists_of_run_bind hm
  obtain rfl : s₂ = s := (keeps_modelNumber on).of_run hnumber
  refine ⟨number, m, ?_, congrArg Prod.fst hb⟩
  cases hget : s₂.models.get? number with
  | none =>
    rw [run_entry_of_none hget] at hentry
    cases hentry
  | some m' =>
    rw [run_entry hget] at hentry
    cases hentry
    rfl

theorem spans_of_rangeOf {m : Model Float} {extent : Extent} {r : Range Float} (h : rangeOf m extent = .ok r) :
    m.Spans r := by
  cases extent with
  | whole => exact Model.spans_of_beamline h
  | between first last => exact SegmentArgument.spans_of_rangeBetween h

/-- The indexes found are those of elements with a matching name, in the order of the line. -/
theorem sublist_indexesIn {m : Model Float} {text : String} {found : List Nat} (h : indexesIn m text = .ok found) :
    found.Sublist (List.range m.length) := by
  obtain ⟨node, -, h⟩ := bind_eq_ok_iff.mp h
  obtain rfl := Except.ok.inj h
  exact Model.sublist_indexesWhere m _

/-- In every session that line requests lead to, with any other work in between, the lines are well formed; ranges are
parts of them, and indexes are found in ascending order and under different names. A request that is refused leaves
everything but the count of elements, one that is granted makes one line or one addition out of elements, and none has a
hand in what trackers and accelerators hold. Whatever follows, each line is what it was with something added, and what
was obtained from it endures. -/
theorem lines_stay_well_formed {s : Session} (hs : LeadsTo {} s) :
    LinesWellFormed s.models ∧
    (∀ on text found, ((findIndexes on text).run s).1 = .ok found →
      ∃ number m, s.models.get? number = some m ∧ found.Pairwise (· < ·) ∧ (∀ i ∈ found, i < m.length) ∧
        (found.map fun i => m.elements[i]?.map Element.name).Nodup) ∧
    (∀ on extent r, ((beamline on extent).run s).1 = .ok r → ∃ number m, s.models.get? number = some m ∧ m.Spans r) ∧
    (∀ q : LineRequest,
      (∀ fault, ((lineWork q).run s).1 = .error fault →
        ((lineWork q).run s).2.apartFromCount = s.apartFromCount) ∧
      (((lineWork q).run s).1 = .ok () → s.OnlyElements q ∧ LinesGrow s.models ((lineWork q).run s).2.models) ∧
      ((lineWork q).run s).2.besideLines = s.besideLines) ∧
    ∀ s', LeadsTo s s' → ∀ number m, s.models.get? number = some m →
      ∃ m', s'.models.get? number = some m' ∧ m.GrownTo m' ∧ m.Endures m' := by
  have hlines : LinesWellFormed s.models := hs.wellFormed fun _ _ hnone => nomatch hnone
  refine ⟨hlines, ?_, ?_, ?_, ?_⟩
  · intro on text found hfound
    obtain ⟨number, m, hm, hindexes⟩ := exists_line hfound
    have hsublist := sublist_indexesIn hindexes
    exact ⟨number, m, hm, List.pairwise_lt_range.sublist hsublist,
      fun i hi => List.mem_range.mp (hsublist.subset hi), (hlines number m hm).nodup_names hsublist⟩
  · intro on extent r hr
    obtain ⟨number, m, hm, hrange⟩ := exists_line hr
    exact ⟨number, m, hm, spans_of_rangeOf hrange⟩
  · intro q
    have hgrows := growsLines_lineWork q s
    refine ⟨?_, ?_, keeps_lineWork q s⟩
    · intro fault hrefused
      rw [hrefused] at hgrows
      exact hgrows
    · intro hgranted
      rw [hgranted] at hgrows
      exact ⟨onlyElements_of_granted hgranted, hgrows⟩
  · intro s' hs' number m hm
    obtain ⟨m', hm', hgrown⟩ := hs'.grownTo hm
    exact ⟨m', hm', hgrown, hgrown.endures⟩

end Session

namespace GrowingLine

open Session

/-- Names for three elements, of which two share a name of their own. -/
def named : Session where
  names := Table.empty
    |>.insert "first" (.element ⟨0, "M1", "Marker", 0, .marker⟩)
    |>.insert "second" (.element ⟨1, "M2", "Marker", 0, .marker⟩)
    |>.insert "again" (.element ⟨2, "M1", "Marker", 0, .marker⟩)

/-- A line of the first element. -/
def built : Session := ((lineWork (.create (some "line") "line" [.named "first"] [.described "K" [0]])).run named).2

/-- The line with the second element behind the first. -/
def grown : Session := ((lineWork (.addElement "line" (.named "second"))).run built).2

theorem leadsTo_named : LeadsTo {} named := .beside .refl rfl

theorem leadsTo_built : LeadsTo {} built := .line leadsTo_named _

theorem leadsTo_grown : LeadsTo built grown := .line .refl _

/-- The line takes the second element and refuses the third, and what it was goes on to be found in it. -/
theorem line_stays_well_formed :
    LeadsTo {} built ∧ LinesWellFormed built.models ∧
      (∃ m m', built.models.get? 0 = some m ∧ m.length = 1 ∧ grown.models.get? 0 = some m' ∧ m.Endures m') ∧
      (∃ number m, built.models.get? number = some m ∧ 0 < m.length) ∧
      (∃ number m r, built.models.get? number = some m ∧ m.Spans r ∧ r.elements.length = 1) ∧
      LinesGrow built.models grown.models ∧
      ((lineWork (.addElement "line" (.named "again"))).run built).2.apartFromCount = built.apartFromCount := by
  obtain ⟨hlines, hindexes, hranges, hrequests, hendures⟩ := lines_stay_well_formed leadsTo_built
  refine ⟨leadsTo_built, hlines, ?_, ?_, ?_, ?_, ?_⟩
  · obtain ⟨m, hm, hlength⟩ := (Option.any_eq_true _ _).mp
      (show (built.models.get? 0).any (fun m => m.length == 1) = true by decide +kernel)
    obtain ⟨m', hm', -, hendured⟩ := hendures grown leadsTo_grown 0 m hm
    exact ⟨m, m', hm, beq_iff_eq.mp hlength, hm', hendured⟩
  · obtain ⟨found, hrun, hfound⟩ := exists_ok_of_any
      (show ((findIndexes "line" "M.").run built).1.toOption.any (fun found => found == [0]) = true by decide +kernel)
    obtain rfl := beq_iff_eq.mp hfound
    obtain ⟨number, m, hm, -, hinside, -⟩ := hindexes _ _ _ hrun
    exact ⟨number, m, hm, hinside 0 List.mem_cons_self⟩
  · obtain ⟨r, hrun, hr⟩ := exists_ok_of_any
      (show ((beamline "line" .whole).run built).1.toOption.any (fun r => r.elements.length == 1) = true by
        decide +kernel)
    obtain ⟨number, m, hm, hspans⟩ := hranges _ _ _ hrun
    exact ⟨number, m, r, hm, hspans, beq_iff_eq.mp hr⟩
  · obtain ⟨⟨⟩, hgranted, -⟩ := exists_ok_of_any
      (show ((lineWork (.addElement "line" (.named "second"))).run built).1.toOption.any (fun _ => true) = true by
        decide +kernel)
    exact ((hrequests _).2.1 hgranted).2
  · obtain ⟨fault, hrefused⟩ := exists_error_of_isNone
      (show ((lineWork (.addElement "line" (.named "again"))).run built).1.toOption.isNone = true by decide +kernel)
    exact (hrequests _).1 fault hrefused

end GrowingLine

end BeamOptics
