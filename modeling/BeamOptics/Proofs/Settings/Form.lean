import BeamOptics.Form
import BeamOptics.Proofs.Action

/-!
# Reading forms

A form reads all its fields, whatever is wrong with some of them. Where its rules leave nothing but issues, the reading
has a closed form: the draft filled with what the entries hold, or all the issues in the order of the fields. There are
none just when the form accepts the entries: each entry has a field, no required field is missing, and every value is
one that the rule of its field takes.
-/

namespace BeamOptics

/-! ### Rules -/

namespace Rule

variable {β : Type}

/-- Whatever the rule does not take is an issue of its field. -/
def IssuesOnly (rule : Rule β) : Prop := ∀ d fault, rule d ≠ .error (.fault fault)

theorem issuesOnly_orRefuse (kind : IssueKind) (result : Option β) (fault : Fault) :
    orRefuse kind result ≠ .error (.fault fault) := by
  cases result <;> exact nofun

theorem issuesOnly_wholeOf (x : Float) (fault : Fault) : wholeOf x ≠ .error (.fault fault) := by
  unfold wholeOf
  split
  · split
    · split <;> exact nofun
    · exact nofun
  · exact nofun

theorem issuesOnly_int : int.IssuesOnly := by
  intro d fault
  cases d with
  | float x => exact issuesOnly_wholeOf x fault
  | text s => exact issuesOnly_orRefuse _ _ fault
  | _ => exact nofun

theorem issuesOnly_float : float.IssuesOnly := by
  intro d fault
  cases d with
  | int i =>
    rw [float]
    split <;> exact nofun
  | text s => exact issuesOnly_orRefuse _ _ fault
  | _ => exact nofun

theorem issuesOnly_boolOfInt (i : Int) (fault : Fault) : boolOfInt i ≠ .error (.fault fault) := by
  unfold boolOfInt
  split
  · exact nofun
  · split <;> exact nofun

theorem issuesOnly_bool : bool.IssuesOnly := by
  intro d fault
  cases d with
  | int i =>
    rw [bool]
    split
    · exact issuesOnly_boolOfInt i fault
    · exact nofun
  | float x =>
    rw [bool]
    split
    · exact issuesOnly_boolOfInt _ fault
    · exact nofun
  | text s =>
    rw [bool, boolOfWord]
    split
    · exact nofun
    · split <;> exact nofun
  | _ => exact nofun

theorem issuesOnly_text : text.IssuesOnly := by
  intro d fault
  cases d <;> exact nofun

theorem IssuesOnly.only {rule : Rule β} (h : rule.IssuesOnly) (holds : β → Bool) (kind : IssueKind) :
    (rule.only holds kind).IssuesOnly := by
  intro d fault hfault
  unfold Rule.only at hfault
  cases hd : rule d with
  | error refusal =>
    rw [hd] at hfault
    exact h d fault (hd.trans hfault)
  | ok b =>
    rw [hd] at hfault
    change (if holds b = true then pure b else refuse kind) = _ at hfault
    split at hfault <;> cases hfault

end Rule

/-! ### Fields -/

namespace Field

variable {δ : Type}

def IssuesOnly (field : Field δ) : Prop := ∀ d fault, field.fill d ≠ .error (.fault fault)

theorem issuesOnly_of {β : Type} {rule : Rule β} (h : rule.IssuesOnly) (name : String) (required : Bool)
    (put : β → δ → δ) : (Field.of name required rule put).IssuesOnly := by
  intro d fault hfault
  change (rule d).map put = _ at hfault
  cases hd : rule d with
  | error refusal =>
    rw [hd] at hfault
    obtain rfl := Except.error.inj hfault
    exact h d fault hd
  | ok b =>
    rw [hd] at hfault
    cases hfault

/-- What is wrong with the entries for a field. -/
def issue? (entries : List (String × Datum)) (field : Field δ) : Option Issue :=
  match entries.lookup field.name with
  | none => if field.required then some ⟨field.name, .missing⟩ else none
  | some d =>
    match field.fill d with
    | .error (.issue kind) => some ⟨field.name, kind⟩
    | _ => none

/-- A draft with what the entries hold for a field; without a value that the field takes it stays as it is. -/
def filled (entries : List (String × Datum)) (draft : δ) (field : Field δ) : δ :=
  match entries.lookup field.name with
  | none => draft
  | some d =>
    match field.fill d with
    | .ok put => put draft
    | .error _ => draft

theorem fillField_eq {field : Field δ} (h : field.IssuesOnly) (entries : List (String × Datum)) (draft : δ)
    (issues : List Issue) :
    Form.fillField entries field draft issues =
      .ok (field.filled entries draft, issues ++ (field.issue? entries).toList) := by
  unfold Form.fillField filled issue?
  cases entries.lookup field.name with
  | none => cases field.required <;> simp
  | some d =>
    dsimp only
    cases hd : field.fill d with
    | ok put => simp
    | error refusal =>
      cases refusal with
      | issue kind => rfl
      | fault fault => exact absurd hd (h d fault)

/-- The entries hold what a field asks for. -/
structure Satisfied (entries : List (String × Datum)) (field : Field δ) : Prop where
  given : field.required = true → ∃ d, entries.lookup field.name = some d
  taken : ∀ d, entries.lookup field.name = some d → ∃ put, field.fill d = .ok put

theorem issue?_eq_none_iff {field : Field δ} (h : field.IssuesOnly) {entries : List (String × Datum)} :
    field.issue? entries = none ↔ field.Satisfied entries := by
  unfold issue?
  cases hlookup : entries.lookup field.name with
  | none =>
    constructor
    · intro hissue
      refine ⟨fun hrequired => ?_, fun d hd => ?_⟩
      · rw [hrequired] at hissue
        cases hissue
      · rw [hlookup] at hd
        cases hd
    · intro hsatisfied
      cases hrequired : field.required with
      | false => rfl
      | true =>
        obtain ⟨d, hd⟩ := hsatisfied.given hrequired
        rw [hlookup] at hd
        cases hd
  | some d =>
    dsimp only
    constructor
    · intro hissue
      refine ⟨fun _ => ⟨d, hlookup⟩, fun d' hd' => ?_⟩
      obtain rfl := Option.some.inj (hlookup.symm.trans hd')
      cases hd : field.fill d with
      | ok put => exact ⟨put, rfl⟩
      | error refusal =>
        cases refusal with
        | issue kind =>
          rw [hd] at hissue
          cases hissue
        | fault fault => exact absurd hd (h d fault)
    · intro hsatisfied
      obtain ⟨put, hput⟩ := hsatisfied.taken d hlookup
      rw [hput]

theorem field_of_issue? {field : Field δ} {entries : List (String × Datum)} {issue : Issue}
    (h : field.issue? entries = some issue) : issue.field = field.name := by
  unfold issue? at h
  split at h
  · split at h
    · obtain rfl := Option.some.inj h
      rfl
    · cases h
  · split at h
    · obtain rfl := Option.some.inj h
      rfl
    · cases h

end Field

/-! ### Forms -/

namespace Form

variable {δ τ : Type}

/-- All that is wrong with entries: field by field, and then the keys that no field has. -/
def issues (form : Form δ τ) (entries : List (String × Datum)) : List Issue :=
  form.fields.filterMap (·.issue? entries) ++ form.extras entries

/-- The draft with what the entries hold for every field. -/
def filled (form : Form δ τ) (entries : List (String × Datum)) : δ :=
  form.fields.foldl (Field.filled entries) form.blank

/-- Entries without anything wrong. -/
structure Accepts (form : Form δ τ) (entries : List (String × Datum)) : Prop where
  known : ∀ entry ∈ entries, ∃ field ∈ form.fields, field.name = entry.1
  satisfied : ∀ field ∈ form.fields, field.Satisfied entries

/-- Forms whose rules leave nothing but issues, and whose draft is the value. -/
structure Plain (form : Form δ δ) : Prop where
  issuesOnly : ∀ field ∈ form.fields, field.IssuesOnly
  finish : form.finish = .ok

theorem fillFields_eq {fields : List (Field δ)} (h : ∀ field ∈ fields, field.IssuesOnly)
    (entries : List (String × Datum)) (draft : δ) (issues : List Issue) :
    fillFields entries fields draft issues =
      .ok (fields.foldl (Field.filled entries) draft, issues ++ fields.filterMap (·.issue? entries)) := by
  induction fields generalizing draft issues with
  | nil => simp [fillFields]
  | cons field rest ih =>
    obtain ⟨hfield, hrest⟩ := List.forall_mem_cons.mp h
    rw [fillFields, Field.fillField_eq hfield]
    change fillFields entries rest _ _ = _
    rw [ih hrest, List.foldl_cons, List.append_assoc]
    cases hissue : field.issue? entries with
    | none => simp [hissue]
    | some issue => simp [hissue]

theorem extras_eq_nil_iff {form : Form δ τ} {entries : List (String × Datum)} :
    form.extras entries = [] ↔ ∀ entry ∈ entries, ∃ field ∈ form.fields, field.name = entry.1 := by
  simp [extras, hasField]

theorem issues_eq_nil_iff {form : Form δ τ} (h : ∀ field ∈ form.fields, field.IssuesOnly)
    {entries : List (String × Datum)} : form.issues entries = [] ↔ form.Accepts entries := by
  rw [issues, List.append_eq_nil_iff, extras_eq_nil_iff, List.filterMap_eq_nil_iff]
  constructor
  · rintro ⟨hfields, hknown⟩
    exact ⟨hknown, fun field hfield => (Field.issue?_eq_none_iff (h field hfield)).mp (hfields field hfield)⟩
  · rintro ⟨hknown, hsatisfied⟩
    exact ⟨fun field hfield => (Field.issue?_eq_none_iff (h field hfield)).mpr (hsatisfied field hfield), hknown⟩

/-- An issue is about a field of the form, or about a key of the entries that is none. -/
theorem field_of_mem_issues {form : Form δ τ} {entries : List (String × Datum)} {issue : Issue}
    (h : issue ∈ form.issues entries) :
    (∃ field ∈ form.fields, issue.field = field.name) ∨
      (∃ entry ∈ entries, issue = ⟨entry.1, .extraForbidden⟩ ∧ ∀ field ∈ form.fields, field.name ≠ entry.1) := by
  rcases List.mem_append.mp h with hissue | hextra
  · obtain ⟨field, hfield, hissue⟩ := List.mem_filterMap.mp hissue
    exact .inl ⟨field, hfield, Field.field_of_issue? hissue⟩
  · obtain ⟨entry, hentry, rfl⟩ := List.mem_map.mp hextra
    obtain ⟨hentry, hunknown⟩ := List.mem_filter.mp hentry
    refine .inr ⟨entry, hentry, rfl, fun field hfield hname => ?_⟩
    have hhas : form.hasField entry.1 = true := List.any_eq_true.mpr ⟨field, hfield, beq_iff_eq.mpr hname⟩
    rw [hhas] at hunknown
    cases hunknown

namespace Plain

variable {form : Form δ δ} {entries : List (String × Datum)}

theorem read_of_accepts (h : form.Plain) (haccepts : form.Accepts entries) :
    form.read entries = .ok (form.filled entries) := by
  have hissues := (issues_eq_nil_iff h.issuesOnly).mpr haccepts
  rw [issues] at hissues
  rw [read, fillFields_eq h.issuesOnly]
  dsimp only [bind, Except.bind]
  rw [List.nil_append, hissues, h.finish]
  rfl

theorem read_of_not_accepts (h : form.Plain) (haccepts : ¬form.Accepts entries) :
    form.read entries = .error (.validation form.title (form.issues entries)) := by
  have hissues : form.issues entries ≠ [] := fun hnil => haccepts ((issues_eq_nil_iff h.issuesOnly).mp hnil)
  obtain ⟨issue, others, hcons⟩ := List.exists_cons_of_ne_nil hissues
  rw [hcons]
  rw [issues] at hcons
  rw [read, fillFields_eq h.issuesOnly]
  dsimp only [bind, Except.bind]
  rw [List.nil_append, hcons]

end Plain

/-! ### Untyped values -/

/-- The mapping with the texts of named entries as keys. -/
def mappingOf (entries : List (String × Datum)) : Datum := .mapping (entries.map fun entry => (.text entry.1, entry.2))

/-- A value that a form takes, and what it is read as. -/
inductive Takes (form : Form δ δ) : Datum → δ → Prop
  | filled {entries : List (String × Datum)} (h : form.Accepts entries) :
    Takes form (mappingOf entries) (form.filled entries)

/-- A value that a form refuses, and the fault. -/
inductive Refuses (form : Form δ δ) : Datum → Fault → Prop
  | mistaken {entries : List (String × Datum)} (h : ¬form.Accepts entries) :
    Refuses form (mappingOf entries) (.validation form.title (form.issues entries))
  | unnamed {entries : List (Datum × Datum)} {key value : Datum} (h : (key, value) ∈ entries)
      (hkey : ∀ name, key ≠ .text name) : Refuses form (.mapping entries) .keywordType
  | foreign {d : Datum} (h : ∀ entries, d ≠ .mapping entries) :
    Refuses form d (.sectionType (form.home ++ "." ++ form.title) d.typeName)

theorem mapM_entryName_named (entries : List (String × Datum)) :
    (entries.map fun entry => (Datum.text entry.1, entry.2)).mapM entryName = .ok entries := by
  induction entries with
  | nil => rfl
  | cons entry rest ih =>
    rw [List.map_cons, List.mapM_cons, ih]
    rfl

theorem mapM_entryName_of_mem {entries : List (Datum × Datum)} {key value : Datum} (h : (key, value) ∈ entries)
    (hkey : ∀ name, key ≠ .text name) : entries.mapM entryName = .error .keywordType := by
  induction entries with
  | nil => cases h
  | cons entry rest ih =>
    obtain ⟨key', value'⟩ := entry
    rw [List.mapM_cons]
    cases key' with
    | text name =>
      rcases List.mem_cons.mp h with heq | hrest
      · exact absurd (Prod.mk.inj heq).1 (hkey name)
      · rw [ih hrest]
        rfl
    | _ => rfl

/-- Keys are all texts, or one of them is none. -/
theorem exists_named_or_unnamed (entries : List (Datum × Datum)) :
    (∃ named : List (String × Datum), entries = named.map fun entry => (.text entry.1, entry.2)) ∨
      ∃ key value, (key, value) ∈ entries ∧ ∀ name, key ≠ .text name := by
  induction entries with
  | nil => exact .inl ⟨[], rfl⟩
  | cons entry rest ih =>
    obtain ⟨key, value⟩ := entry
    cases key with
    | text name =>
      rcases ih with ⟨named, rfl⟩ | ⟨key, value', hmem, hkey⟩
      · exact .inl ⟨(name, value) :: named, rfl⟩
      · exact .inr ⟨key, value', List.mem_cons_of_mem _ hmem, hkey⟩
    | _ => exact .inr ⟨_, value, List.mem_cons_self, nofun⟩

theorem takes_or_refuses (form : Form δ δ) (d : Datum) : (∃ t, form.Takes d t) ∨ ∃ fault, form.Refuses d fault := by
  cases d with
  | mapping entries =>
    rcases exists_named_or_unnamed entries with ⟨named, rfl⟩ | ⟨key, value, hmem, hkey⟩
    · by_cases haccepts : form.Accepts named
      · exact .inl ⟨_, .filled haccepts⟩
      · exact .inr ⟨_, .mistaken haccepts⟩
    · exact .inr ⟨_, .unnamed hmem hkey⟩
  | _ => exact .inr ⟨_, .foreign nofun⟩

theorem readDatum_mappingOf (form : Form δ τ) (entries : List (String × Datum)) :
    form.readDatum (mappingOf entries) = form.read entries := by
  change (_ >>= fun entries => form.read entries) = _
  rw [mapM_entryName_named]
  rfl

namespace Plain

variable {form : Form δ δ} {d : Datum}

theorem readDatum_of_takes (h : form.Plain) {t : δ} (htakes : form.Takes d t) : form.readDatum d = .ok t := by
  obtain ⟨haccepts⟩ := htakes
  rw [readDatum_mappingOf, h.read_of_accepts haccepts]

theorem readDatum_of_refuses (h : form.Plain) {fault : Fault} (hrefuses : form.Refuses d fault) :
    form.readDatum d = .error fault := by
  cases hrefuses with
  | mistaken haccepts => rw [readDatum_mappingOf, h.read_of_not_accepts haccepts]
  | unnamed hmem hkey =>
    change (_ >>= fun entries => form.read entries) = _
    rw [mapM_entryName_of_mem hmem hkey]
    rfl
  | foreign hforeign =>
    cases d with
    | mapping entries => exact absurd rfl (hforeign entries)
    | _ => rfl

/-- A form reads what it takes, as what it takes it for. -/
theorem readDatum_eq_ok_iff (h : form.Plain) {t : δ} : form.readDatum d = .ok t ↔ form.Takes d t := by
  refine ⟨fun hread => ?_, h.readDatum_of_takes⟩
  rcases form.takes_or_refuses d with ⟨t', htakes⟩ | ⟨fault, hrefuses⟩
  · rw [h.readDatum_of_takes htakes] at hread
    obtain rfl := Except.ok.inj hread
    exact htakes
  · rw [h.readDatum_of_refuses hrefuses] at hread
    cases hread

theorem readDatum_eq_error_iff (h : form.Plain) {fault : Fault} :
    form.readDatum d = .error fault ↔ form.Refuses d fault := by
  refine ⟨fun hread => ?_, h.readDatum_of_refuses⟩
  rcases form.takes_or_refuses d with ⟨t, htakes⟩ | ⟨fault', hrefuses⟩
  · rw [h.readDatum_of_takes htakes] at hread
    cases hread
  · rw [h.readDatum_of_refuses hrefuses] at hread
    obtain rfl := Except.error.inj hread
    exact hrefuses

end Plain

end Form

end BeamOptics
