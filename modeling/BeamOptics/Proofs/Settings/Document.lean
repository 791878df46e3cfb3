import BeamOptics.Proofs.Settings.Dictionary
import BeamOptics.Proofs.Settings.Form
import BeamOptics.Settings.Document
import Mathlib.Data.List.Chain

/-!
# Faults of settings documents

A document is refused for what it is, then for a key that is no section, and only then for what a section holds: for the
first section that its form refuses, in the order of the sections and not of the document. Unknown keys are listed in
order, and there is no list of keys that have none. A form takes its entries as they are named, so a section without
entries and a key that is no text have faults of their own, which are about the call and not about the settings.
-/

namespace BeamOptics

namespace Fault

def IsConfiguration : Fault → Prop
  | settingsType _ | unknownSections _ => True
  | _ => False

def IsValidation : Fault → Prop
  | validation .. => True
  | _ => False

end Fault

/-! ### Forms of the sections -/

theorem TrackerConfig.issuesOnly_levelRule : levelRule.IssuesOnly := by
  intro d fault hfault
  unfold levelRule at hfault
  cases hd : Rule.text d with
  | error refusal =>
    rw [hd] at hfault
    obtain rfl := Except.error.inj hfault
    exact Rule.issuesOnly_text d fault hd
  | ok word =>
    rw [hd] at hfault
    dsimp only [bind, Except.bind] at hfault
    split at hfault <;> cases hfault

theorem TrackerConfig.plain_form : form.Plain where
  finish := rfl
  issuesOnly := by
    have hname := Rule.issuesOnly_text.only (fun s => decide (s.length ≥ 1)) .stringTooShort
    simp only [form, List.forall_mem_cons]
    exact ⟨Field.issuesOnly_of hname _ _ _, Field.issuesOnly_of issuesOnly_levelRule _ _ _, nofun⟩

theorem OrbitConfig.plain_form : form.Plain where
  finish := rfl
  issuesOnly := by
    have hbool (name : String) (put : Bool → OrbitConfig Float → OrbitConfig Float) :
        (Field.of name false Rule.bool put).IssuesOnly := Field.issuesOnly_of Rule.issuesOnly_bool _ _ _
    have hpositive : positive.IssuesOnly := Rule.issuesOnly_float.only _ _
    have hnonNegative : nonNegative.IssuesOnly := Rule.issuesOnly_float.only _ _
    simp only [form, List.forall_mem_cons]
    exact ⟨hbool _ _, hbool _ _, Field.issuesOnly_of (Rule.issuesOnly_int.only _ _) _ _ _,
      Field.issuesOnly_of hnonNegative _ _ _, hbool _ _, Field.issuesOnly_of hpositive _ _ _,
      Field.issuesOnly_of hpositive _ _ _, Field.issuesOnly_of (Rule.issuesOnly_int.only _ _) _ _ _,
      Field.issuesOnly_of Rule.issuesOnly_float _ _ _, hbool _ _,
      Field.issuesOnly_of ((Rule.issuesOnly_float.only _ _).only _ _) _ _ _, nofun⟩

theorem ReferenceBeam.plain_form : form.Plain where
  finish := rfl
  issuesOnly := by
    have hcentroid (name : String) (c : Coordinate) : (centroidField name c).IssuesOnly :=
      Field.issuesOnly_of Rule.issuesOnly_float _ _ _
    simp only [form, List.forall_mem_cons]
    exact ⟨Field.issuesOnly_of (Rule.issuesOnly_float.only _ _) _ _ _,
      Field.issuesOnly_of Rule.issuesOnly_float _ _ _, hcentroid _ _, hcentroid _ _, hcentroid _ _, hcentroid _ _,
      hcentroid _ _, hcentroid _ _, nofun⟩

/-! ### Order of names -/

namespace Datum

/-- Two texts, or two numbers. -/
def Comparable (a b : Datum) : Prop :=
  (∃ s t, a = .text s ∧ b = .text t) ∨ (a.number?.isSome = true ∧ b.number?.isSome = true)

theorem Comparable.symm {a b : Datum} (h : a.Comparable b) : b.Comparable a := by
  rcases h with ⟨s, t, rfl, rfl⟩ | ⟨ha, hb⟩
  · exact .inl ⟨t, s, rfl, rfl⟩
  · exact .inr ⟨hb, ha⟩

theorem Comparable.trans {a b c : Datum} (hab : a.Comparable b) (hbc : b.Comparable c) : a.Comparable c := by
  rcases hab with ⟨s, t, rfl, rfl⟩ | ⟨ha, hb⟩ <;> rcases hbc with ⟨s', t', heq, rfl⟩ | ⟨hb', hc⟩
  · exact .inl ⟨s, t', rfl, rfl⟩
  · cases hb'
  · rw [heq] at hb
    cases hb
  · exact .inr ⟨ha, hc⟩

/-- Keys that are compared have an order just if they are comparable. -/
theorem exists_relate_iff {a b : Datum} (ha : Document.isKey a = true) (hb : Document.isKey b = true) (r : Relation) :
    (∃ holds, relate r a b = .ok holds) ↔ a.Comparable b := by
  cases a <;> cases b <;> simp [Document.isKey, Comparable, relate, number?] at ha hb ⊢

end Datum

namespace Settings

theorem clash?_eq_none_iff {names : List Datum} (h : ∀ name ∈ names, Document.isKey name = true) :
    clash? names = none ↔ names.Pairwise Datum.Comparable := by
  induction names with
  | nil => simp [clash?]
  | cons a rest ih =>
    cases rest with
    | nil => simp [clash?]
    | cons b rest =>
      obtain ⟨ha, hrest⟩ := List.forall_mem_cons.mp h
      have hb := (List.forall_mem_cons.mp hrest).1
      have hrelate := Datum.exists_relate_iff hb ha .less
      rw [clash?]
      cases hab : Datum.relate .less b a with
      | error clash =>
        rw [hab] at hrelate
        refine iff_of_false nofun fun hpairs => ?_
        have hcomparable := (List.pairwise_cons.mp hpairs).1 b List.mem_cons_self
        exact nomatch hrelate.mpr hcomparable.symm
      | ok later =>
        have hcomparable := (hrelate.mp ⟨later, hab⟩).symm
        dsimp only
        -- Only neighbours are compared; the others follow, since being comparable is transitive.
        rw [ih hrest]
        refine ⟨fun hpairs => List.pairwise_cons.mpr ⟨fun c hc => ?_, hpairs⟩, List.Pairwise.of_cons⟩
        rcases List.mem_cons.mp hc with rfl | hc
        · exact hcomparable
        · exact hcomparable.trans ((List.pairwise_cons.mp hpairs).1 c hc)

theorem exists_sortNames {names : List Datum} (h : ∀ name ∈ names, Document.isKey name = true)
    (hpairs : names.Pairwise Datum.Comparable) : ∃ sorted, sortNames names = .ok sorted ∧ sorted.Perm names := by
  rw [sortNames, (clash?_eq_none_iff h).mpr hpairs]
  exact ⟨_, rfl, List.mergeSort_perm names before⟩

theorem exists_clash {names : List Datum} (h : ∀ name ∈ names, Document.isKey name = true)
    (hpairs : ¬names.Pairwise Datum.Comparable) : ∃ clash, sortNames names = .error (.unordered clash) := by
  rw [← clash?_eq_none_iff h] at hpairs
  obtain ⟨clash, hclash⟩ := Option.ne_none_iff_exists'.mp hpairs
  rw [sortNames, hclash]
  exact ⟨clash, rfl⟩

/-! ### Sections -/

variable {entries : List (Datum × Datum)} {name : String}

/-- A section has a value. -/
def Holds (entries : List (Datum × Datum)) (name : String) (d : Datum) : Prop :=
  (.text name, d) ∈ entries ∧ d ≠ .null

/-- Nothing is said about a section, or no more than that it is empty. -/
def Silent (entries : List (Datum × Datum)) (name : String) : Prop := ∀ d, ¬Holds entries name d

theorem sectionValue?_eq_some_iff (h : Unambiguous entries) {d : Datum} :
    sectionValue? entries name = some d ↔ Holds entries name d := by
  unfold sectionValue?
  cases hfind : entries.find? fun entry => Datum.equal entry.1 (.text name) with
  | none =>
    have hnone := List.find?_eq_none.mp hfind
    exact iff_of_false nofun fun hholds => hnone _ hholds.1 (Datum.equal_text_iff.mpr rfl)
  | some entry =>
    obtain ⟨key, value⟩ := entry
    have hmem := List.mem_of_find?_eq_some hfind
    have hkey : Datum.equal key (.text name) = true := by simpa using List.find?_some hfind
    obtain rfl := Datum.equal_text_iff.mp hkey
    constructor
    · intro hvalue
      cases value with
      | null => cases hvalue
      | _ =>
        obtain rfl := Option.some.inj hvalue
        exact ⟨hmem, nofun⟩
    · rintro ⟨hd, hnull⟩
      obtain rfl := h hd hmem
      cases d with
      | null => exact absurd rfl hnull
      | _ => rfl

theorem sectionValue?_eq_none_iff (h : Unambiguous entries) :
    sectionValue? entries name = none ↔ Silent entries name := by
  rw [Option.eq_none_iff_forall_ne_some]
  exact forall_congr' fun d => not_congr (sectionValue?_eq_some_iff h)

theorem silent_or_holds (h : Unambiguous entries) (name : String) :
    Silent entries name ∨ ∃ d, Holds entries name d := by
  cases hvalue : sectionValue? entries name with
  | none => exact .inl ((sectionValue?_eq_none_iff h).mp hvalue)
  | some d => exact .inr ⟨d, (sectionValue?_eq_some_iff h).mp hvalue⟩

/-- A section comes to its default, or to what the form takes its value for. -/
def Gives {τ : Type} (entries : List (Datum × Datum)) (name : String) (form : Form τ τ) (otherwise t : τ) : Prop :=
  (Silent entries name ∧ t = otherwise) ∨ ∃ d, Holds entries name d ∧ form.Takes d t

/-- A section without a default. -/
def MayGive {τ : Type} (entries : List (Datum × Datum)) (name : String) (form : Form τ τ) : Option τ → Prop
  | none => Silent entries name
  | some t => ∃ d, Holds entries name d ∧ form.Takes d t

/-- The form refuses what a section holds. -/
def Spoils {τ : Type} (entries : List (Datum × Datum)) (name : String) (form : Form τ τ) (fault : Fault) : Prop :=
  ∃ d, Holds entries name d ∧ form.Refuses d fault

def Sound {τ : Type} (entries : List (Datum × Datum)) (name : String) (form : Form τ τ) : Prop :=
  ∀ d, Holds entries name d → ∃ t, form.Takes d t

section

variable {τ : Type} {form : Form τ τ} {otherwise : τ}

theorem section?_of_silent (h : Unambiguous entries) (hsilent : Silent entries name) :
    Settings.section? entries name form otherwise = .ok otherwise := by
  rw [section?, (sectionValue?_eq_none_iff h).mpr hsilent]

theorem section?_of_holds (h : Unambiguous entries) {d : Datum} (hholds : Holds entries name d) :
    Settings.section? entries name form otherwise = form.readDatum d := by
  rw [section?, (sectionValue?_eq_some_iff h).mpr hholds]

theorem section?_eq_ok_iff (h : Unambiguous entries) (hform : form.Plain) {t : τ} :
    Settings.section? entries name form otherwise = .ok t ↔ Gives entries name form otherwise t := by
  rcases silent_or_holds h name with hsilent | ⟨d, hholds⟩
  · rw [section?_of_silent h hsilent]
    refine ⟨fun heq => .inl ⟨hsilent, (Except.ok.inj heq).symm⟩, ?_⟩
    rintro (⟨-, rfl⟩ | ⟨d, hholds, -⟩)
    · rfl
    · exact absurd hholds (hsilent d)
  · rw [section?_of_holds h hholds, hform.readDatum_eq_ok_iff]
    refine ⟨fun htakes => .inr ⟨d, hholds, htakes⟩, ?_⟩
    rintro (⟨hsilent, -⟩ | ⟨d', hholds', htakes⟩)
    · exact absurd hholds (hsilent d)
    · rwa [h hholds.1 hholds'.1]

theorem section?_eq_error_iff (h : Unambiguous entries) (hform : form.Plain) {fault : Fault} :
    Settings.section? entries name form otherwise = .error fault ↔ Spoils entries name form fault := by
  rcases silent_or_holds h name with hsilent | ⟨d, hholds⟩
  · rw [section?_of_silent h hsilent]
    exact iff_of_false nofun fun ⟨d, hholds, _⟩ => hsilent d hholds
  · rw [section?_of_holds h hholds, hform.readDatum_eq_error_iff]
    refine ⟨fun hrefuses => ⟨d, hholds, hrefuses⟩, ?_⟩
    rintro ⟨d', hholds', hrefuses⟩
    rwa [h hholds.1 hholds'.1]

theorem exists_section?_iff (h : Unambiguous entries) (hform : form.Plain) :
    (∃ t, section? entries name form otherwise = .ok t) ↔ Sound entries name form := by
  constructor
  · rintro ⟨t, ht⟩ d hholds
    rw [section?_of_holds h hholds] at ht
    exact ⟨t, hform.readDatum_eq_ok_iff.mp ht⟩
  · intro hsound
    rcases silent_or_holds h name with hsilent | ⟨d, hholds⟩
    · exact ⟨otherwise, section?_of_silent h hsilent⟩
    · obtain ⟨t, htakes⟩ := hsound d hholds
      exact ⟨t, (section?_of_holds h hholds).trans (hform.readDatum_of_takes htakes)⟩

theorem optional_of_silent (h : Unambiguous entries) (hsilent : Silent entries name) :
    (sectionValue? entries name).mapM form.readDatum = .ok none := by
  rw [(sectionValue?_eq_none_iff h).mpr hsilent]
  rfl

theorem optional_of_holds (h : Unambiguous entries) {d : Datum} (hholds : Holds entries name d) :
    (sectionValue? entries name).mapM form.readDatum = (form.readDatum d).map some := by
  rw [(sectionValue?_eq_some_iff h).mpr hholds]
  rfl

theorem optional_eq_ok_iff (h : Unambiguous entries) (hform : form.Plain) {t? : Option τ} :
    (sectionValue? entries name).mapM form.readDatum = .ok t? ↔ MayGive entries name form t? := by
  rcases silent_or_holds h name with hsilent | ⟨d, hholds⟩
  · rw [optional_of_silent h hsilent]
    cases t? with
    | none => exact iff_of_true rfl hsilent
    | some t => exact iff_of_false nofun fun ⟨d, hholds, _⟩ => hsilent d hholds
  · rw [optional_of_holds h hholds, map_eq_ok_iff]
    cases t? with
    | none => exact iff_of_false (fun ⟨t, _, heq⟩ => nomatch heq) fun hsilent => hsilent d hholds
    | some t =>
      constructor
      · rintro ⟨t', hread, heq⟩
        obtain rfl := Option.some.inj heq
        exact ⟨d, hholds, hform.readDatum_eq_ok_iff.mp hread⟩
      · rintro ⟨d', hholds', htakes⟩
        obtain rfl := h hholds.1 hholds'.1
        exact ⟨t, hform.readDatum_of_takes htakes, rfl⟩

theorem optional_eq_error_iff (h : Unambiguous entries) (hform : form.Plain) {fault : Fault} :
    (sectionValue? entries name).mapM form.readDatum = .error fault ↔ Spoils entries name form fault := by
  rcases silent_or_holds h name with hsilent | ⟨d, hholds⟩
  · rw [optional_of_silent h hsilent]
    exact iff_of_false nofun fun ⟨d, hholds, _⟩ => hsilent d hholds
  · rw [optional_of_holds h hholds, map_eq_error_iff, hform.readDatum_eq_error_iff]
    refine ⟨fun hrefuses => ⟨d, hholds, hrefuses⟩, ?_⟩
    rintro ⟨d', hholds', hrefuses⟩
    rwa [h hholds.1 hholds'.1]

end

/-! ### Documents -/

/-- The keys that are no sections. -/
def unlisted (entries : List (Datum × Datum)) : List Datum :=
  (entries.map Prod.fst).filter fun name => !isSection name

/-- Every key is a section. -/
def Known (entries : List (Datum × Datum)) : Prop := ∀ entry ∈ entries, isSection entry.1 = true

theorem unlisted_eq_nil_iff : unlisted entries = [] ↔ Known entries := by
  simp [unlisted, Known]

theorem isKey_of_mem_unlisted (h : IsDictionary entries) : ∀ name ∈ unlisted entries, Document.isKey name = true := by
  intro name hname
  obtain ⟨entry, hentry, rfl⟩ := List.mem_map.mp (List.mem_of_mem_filter hname)
  exact h.keys entry hentry

theorem ofDatum_of_known (h : Known entries) :
    ofDatum (.mapping entries) = (do
      let orbit ← section? entries "closed_orbit" OrbitConfig.form OrbitConfig.standard
      let tracker ← section? entries "tracker" TrackerConfig.form { }
      let beam ← (sectionValue? entries "beam").mapM ReferenceBeam.form.readDatum
      pure { orbit, tracker, beam }) := by
  have hempty : (unlisted entries).isEmpty = true := List.isEmpty_iff.mpr (unlisted_eq_nil_iff.mpr h)
  exact if_pos hempty

theorem ofDatum_of_not_known (h : ¬Known entries) :
    ofDatum (.mapping entries) = sortNames (unlisted entries) >>= fun names => .error (.unknownSections names) := by
  have hempty : ¬(unlisted entries).isEmpty = true := fun hempty =>
    h (unlisted_eq_nil_iff.mp (List.isEmpty_iff.mp hempty))
  exact if_neg hempty

/-- What documents without a fault stand for. -/
inductive StandsFor : Datum → Settings → Prop
  | nothing : StandsFor .null { }
  | sections {entries : List (Datum × Datum)} {orbit : OrbitConfig Float} {tracker : TrackerConfig}
      {beam : Option (ReferenceBeam Float)} (known : Known entries)
      (hasOrbit : Gives entries "closed_orbit" OrbitConfig.form OrbitConfig.standard orbit)
      (hasTracker : Gives entries "tracker" TrackerConfig.form { } tracker)
      (hasBeam : MayGive entries "beam" ReferenceBeam.form beam) : StandsFor (.mapping entries) ⟨orbit, tracker, beam⟩

/-- The fault of the first section that is refused. -/
inductive FirstSpoiled (entries : List (Datum × Datum)) : Fault → Prop
  | orbit {fault : Fault} (h : Spoils entries "closed_orbit" OrbitConfig.form fault) : FirstSpoiled entries fault
  | tracker {fault : Fault} (orbit : Sound entries "closed_orbit" OrbitConfig.form)
      (h : Spoils entries "tracker" TrackerConfig.form fault) : FirstSpoiled entries fault
  | beam {fault : Fault} (orbit : Sound entries "closed_orbit" OrbitConfig.form)
      (tracker : Sound entries "tracker" TrackerConfig.form) (h : Spoils entries "beam" ReferenceBeam.form fault) :
    FirstSpoiled entries fault

section

variable (h : Unambiguous entries) (hknown : Known entries)

include h hknown

theorem ofDatum_eq_ok_iff {settings : Settings} :
    ofDatum (.mapping entries) = .ok settings ↔ StandsFor (.mapping entries) settings := by
  rw [ofDatum_of_known hknown]
  constructor
  · intro hread
    obtain ⟨orbit, horbit, hread⟩ := bind_eq_ok_iff.mp hread
    obtain ⟨tracker, htracker, hread⟩ := bind_eq_ok_iff.mp hread
    obtain ⟨beam, hbeam, hread⟩ := bind_eq_ok_iff.mp hread
    obtain rfl := Except.ok.inj hread
    exact .sections hknown ((section?_eq_ok_iff h OrbitConfig.plain_form).mp horbit)
      ((section?_eq_ok_iff h TrackerConfig.plain_form).mp htracker)
      ((optional_eq_ok_iff h ReferenceBeam.plain_form).mp hbeam)
  · intro hstands
    cases hstands with
    | sections _ horbit htracker hbeam =>
      refine bind_eq_ok_iff.mpr ⟨_, (section?_eq_ok_iff h OrbitConfig.plain_form).mpr horbit, ?_⟩
      refine bind_eq_ok_iff.mpr ⟨_, (section?_eq_ok_iff h TrackerConfig.plain_form).mpr htracker, ?_⟩
      exact bind_eq_ok_iff.mpr ⟨_, (optional_eq_ok_iff h ReferenceBeam.plain_form).mpr hbeam, rfl⟩

theorem ofDatum_eq_error_iff {fault : Fault} :
    ofDatum (.mapping entries) = .error fault ↔ FirstSpoiled entries fault := by
  rw [ofDatum_of_known hknown]
  constructor
  · intro hread
    -- Sections are read in order: a fault of one says that those before it are sound.
    rcases bind_eq_error_iff.mp hread with horbit | ⟨orbit, horbit, hread⟩
    · exact .orbit ((section?_eq_error_iff h OrbitConfig.plain_form).mp horbit)
    have hsound := (exists_section?_iff h OrbitConfig.plain_form).mp ⟨orbit, horbit⟩
    rcases bind_eq_error_iff.mp hread with htracker | ⟨tracker, htracker, hread⟩
    · exact .tracker hsound ((section?_eq_error_iff h TrackerConfig.plain_form).mp htracker)
    have hsound' := (exists_section?_iff h TrackerConfig.plain_form).mp ⟨tracker, htracker⟩
    rcases bind_eq_error_iff.mp hread with hbeam | ⟨beam, -, hread⟩
    · exact .beam hsound hsound' ((optional_eq_error_iff h ReferenceBeam.plain_form).mp hbeam)
    · cases hread
  · intro hfirst
    refine bind_eq_error_iff.mpr ?_
    cases hfirst with
    | orbit hspoils => exact .inl ((section?_eq_error_iff h OrbitConfig.plain_form).mpr hspoils)
    | tracker hsound hspoils =>
      obtain ⟨orbit, horbit⟩ := (exists_section?_iff h OrbitConfig.plain_form).mpr hsound
      refine .inr ⟨orbit, horbit, bind_eq_error_iff.mpr (.inl ?_)⟩
      exact (section?_eq_error_iff h TrackerConfig.plain_form).mpr hspoils
    | beam hsound hsound' hspoils =>
      obtain ⟨orbit, horbit⟩ := (exists_section?_iff h OrbitConfig.plain_form).mpr hsound
      obtain ⟨tracker, htracker⟩ := (exists_section?_iff h TrackerConfig.plain_form).mpr hsound'
      refine .inr ⟨orbit, horbit, bind_eq_error_iff.mpr (.inr ⟨tracker, htracker, bind_eq_error_iff.mpr (.inl ?_)⟩)⟩
      exact (optional_eq_error_iff h ReferenceBeam.plain_form).mpr hspoils

/-- The place of an entry does not matter. -/
theorem ofDatum_of_perm {entries' : List (Datum × Datum)} (hperm : entries'.Perm entries) :
    ofDatum (.mapping entries') = ofDatum (.mapping entries) := by
  have hvalue (name : String) : sectionValue? entries' name = sectionValue? entries name := by
    refine Option.ext fun d => ?_
    rw [sectionValue?_eq_some_iff h, sectionValue?_eq_some_iff (h.perm hperm), Holds, hperm.mem_iff, Holds]
  have hknown' : Known entries' := fun entry hentry => hknown entry (hperm.mem_iff.mp hentry)
  rw [ofDatum_of_known hknown, ofDatum_of_known hknown']
  simp only [section?, hvalue]

end

/-- Unknown keys are listed without a look at any section, if they have an order. -/
theorem exists_unknownSections (h : IsDictionary entries) (hknown : ¬Known entries)
    (hpairs : (unlisted entries).Pairwise Datum.Comparable) :
    ∃ names, names.Perm (unlisted entries) ∧ ofDatum (.mapping entries) = .error (.unknownSections names) := by
  obtain ⟨names, hsort, hperm⟩ := exists_sortNames (isKey_of_mem_unlisted h) hpairs
  refine ⟨names, hperm, ?_⟩
  rw [ofDatum_of_not_known hknown, hsort]
  rfl

theorem exists_unordered (h : IsDictionary entries) (hknown : ¬Known entries)
    (hpairs : ¬(unlisted entries).Pairwise Datum.Comparable) :
    ∃ clash, ofDatum (.mapping entries) = .error (.unordered clash) := by
  obtain ⟨clash, hclash⟩ := exists_clash (isKey_of_mem_unlisted h) hpairs
  refine ⟨clash, ?_⟩
  rw [ofDatum_of_not_known hknown, hclash]
  rfl

theorem ofDatum_of_keys {entries' : List (Datum × Datum)} (hkeys : entries'.map Prod.fst = entries.map Prod.fst)
    (hknown : ¬Known entries) : ofDatum (.mapping entries') = ofDatum (.mapping entries) := by
  have hunlisted : unlisted entries' = unlisted entries := by rw [unlisted, hkeys, unlisted]
  have hknown' : ¬Known entries' := by rwa [← unlisted_eq_nil_iff, hunlisted, unlisted_eq_nil_iff]
  rw [ofDatum_of_not_known hknown, ofDatum_of_not_known hknown', hunlisted]

theorem ofDatum_of_foreign {d : Datum} (hnull : d ≠ .null) (hmapping : ∀ entries, d ≠ .mapping entries) :
    ofDatum d = .error (.settingsType d.typeName) := by
  cases d with
  | null => exact absurd rfl hnull
  | mapping entries => exact absurd rfl (hmapping entries)
  | _ => rfl

/-! ### Documented faults -/

/-- Unknown keys have an order, and sections that are not empty are mappings with texts as keys. -/
structure Regular (entries : List (Datum × Datum)) : Prop where
  comparable : (unlisted entries).Pairwise Datum.Comparable
  named : ∀ name ∈ sections, ∀ d, Holds entries name d → ∃ named, d = Form.mappingOf named

theorem isValidation_of_spoils {τ : Type} {form : Form τ τ} {fault : Fault} (hregular : Regular entries)
    (hname : name ∈ sections) (h : Spoils entries name form fault) : fault.IsValidation := by
  obtain ⟨d, hholds, hrefuses⟩ := h
  obtain ⟨named, rfl⟩ := hregular.named name hname d hholds
  generalize hmapping : Form.mappingOf named = d at hrefuses
  cases hrefuses with
  | mistaken haccepts => trivial
  | unnamed hmem hkey =>
    obtain rfl := Datum.mapping.inj hmapping
    obtain ⟨entry, -, heq⟩ := List.mem_map.mp hmem
    exact absurd (Prod.mk.inj heq).1.symm (hkey _)
  | foreign hforeign => exact absurd hmapping.symm (hforeign _)

theorem isValidation_of_firstSpoiled {fault : Fault} (hregular : Regular entries) (h : FirstSpoiled entries fault) :
    fault.IsValidation := by
  cases h with
  | orbit hspoils => exact isValidation_of_spoils hregular (by decide) hspoils
  | tracker _ hspoils => exact isValidation_of_spoils hregular (by decide) hspoils
  | beam _ _ hspoils => exact isValidation_of_spoils hregular (by decide) hspoils

/-- A fault of a known section is no fault of the document. -/
theorem not_isConfiguration_of_firstSpoiled {fault : Fault} (h : FirstSpoiled entries fault) :
    ¬fault.IsConfiguration := by
  have hspoils {τ : Type} {form : Form τ τ} {name : String} (h : Spoils entries name form fault) :
      ¬fault.IsConfiguration := by
    obtain ⟨d, -, hrefuses⟩ := h
    cases hrefuses <;> exact id
  cases h with
  | orbit h => exact hspoils h
  | tracker _ h => exact hspoils h
  | beam _ _ h => exact hspoils h

variable {d : Datum}

theorem ofDatum_eq_ok_iff_standsFor (h : d.HasDictionary) {settings : Settings} :
    ofDatum d = .ok settings ↔ StandsFor d settings := by
  by_cases hnull : d = .null
  · subst hnull
    constructor
    · intro hread
      obtain rfl := Except.ok.inj hread
      exact .nothing
    · rintro ⟨⟩
      rfl
  by_cases hmapping : ∃ entries, d = .mapping entries
  · obtain ⟨entries, rfl⟩ := hmapping
    by_cases hknown : Known entries
    · exact ofDatum_eq_ok_iff (h entries rfl).unambiguous hknown
    · have hread : ofDatum (.mapping entries) ≠ .ok settings := by
        rw [ofDatum_of_not_known hknown]
        intro hread
        obtain ⟨names, -, hthrow⟩ := bind_eq_ok_iff.mp hread
        cases hthrow
      refine iff_of_false hread fun hstands => ?_
      cases hstands with
      | sections hknown' => exact hknown hknown'
  · have hforeign : ∀ entries, d ≠ .mapping entries := fun entries heq => hmapping ⟨entries, heq⟩
    rw [ofDatum_of_foreign hnull hforeign]
    refine iff_of_false nofun fun hstands => ?_
    cases hstands with
    | nothing => exact hnull rfl
    | sections => exact hmapping ⟨_, rfl⟩

/-- A text gives settings if it can be read and the document stands for them. -/
theorem ofText_eq_ok_iff {text : String} {settings : Settings} :
    ofText text = .ok settings ↔ ∃ d, Document.read? text = some d ∧ StandsFor d settings := by
  unfold ofText
  cases hread : Document.read? text with
  | none => simp
  | some d => simp [ofDatum_eq_ok_iff_standsFor (Document.hasDictionary_of_read? hread)]

theorem isConfiguration_iff (h : d.HasDictionary) :
    (∃ fault, ofDatum d = .error fault ∧ fault.IsConfiguration) ↔
      (d ≠ .null ∧ ∀ entries, d ≠ .mapping entries) ∨
        ∃ entries, d = .mapping entries ∧ ¬Known entries ∧ (unlisted entries).Pairwise Datum.Comparable := by
  constructor
  · rintro ⟨fault, hfault, hconfiguration⟩
    by_cases hmapping : ∃ entries, d = .mapping entries
    · obtain ⟨entries, rfl⟩ := hmapping
      refine .inr ⟨entries, rfl, fun hknown => ?_, ?_⟩
      · have hfirst := (ofDatum_eq_error_iff (h entries rfl).unambiguous hknown).mp hfault
        exact not_isConfiguration_of_firstSpoiled hfirst hconfiguration
      · by_contra hpairs
        by_cases hknown : Known entries
        · rw [unlisted_eq_nil_iff.mpr hknown] at hpairs
          exact hpairs List.Pairwise.nil
        · obtain ⟨clash, hclash⟩ := exists_unordered (h entries rfl) hknown hpairs
          obtain rfl := Except.error.inj (hclash.symm.trans hfault)
          exact hconfiguration
    · refine .inl ⟨?_, fun entries heq => hmapping ⟨entries, heq⟩⟩
      rintro rfl
      cases hfault
  · rintro (⟨hnull, hforeign⟩ | ⟨entries, rfl, hknown, hpairs⟩)
    · exact ⟨_, ofDatum_of_foreign hnull hforeign, trivial⟩
    · obtain ⟨names, -, hnames⟩ := exists_unknownSections (h entries rfl) hknown hpairs
      exact ⟨_, hnames, trivial⟩

/-- A document has settings if it is empty, or if its keys are sections and its sections are what their forms take. It
is a matter of configuration if it is no mapping, or if it has unknown keys that can be listed, whatever its sections
hold; keys without an order cannot be. Of known sections, wherever they are, the first one that is refused gives the
fault. Where sections are mappings with texts as keys, that fault is one of validation. -/
theorem document_fails_by_its_first_fault (d : Datum) (h : d.HasDictionary) :
    (∀ settings, ofDatum d = .ok settings ↔ StandsFor d settings) ∧
    ((∃ fault, ofDatum d = .error fault ∧ fault.IsConfiguration) ↔
      (d ≠ .null ∧ ∀ entries, d ≠ .mapping entries) ∨
        ∃ entries, d = .mapping entries ∧ ¬Known entries ∧ (unlisted entries).Pairwise Datum.Comparable) ∧
    ∀ entries, d = .mapping entries →
      (¬Known entries →
        (∀ entries', entries'.map Prod.fst = entries.map Prod.fst → ofDatum (.mapping entries') = ofDatum d) ∧
        (¬(unlisted entries).Pairwise Datum.Comparable → ∃ clash, ofDatum d = .error (.unordered clash))) ∧
      (Known entries →
        (∀ fault, ofDatum d = .error fault ↔ FirstSpoiled entries fault) ∧
        ∀ entries', entries'.Perm entries → ofDatum (.mapping entries') = ofDatum d) ∧
      (Regular entries → ∀ fault, ofDatum d = .error fault → fault.IsConfiguration ∨ fault.IsValidation) := by
  refine ⟨fun settings => ofDatum_eq_ok_iff_standsFor h, isConfiguration_iff h, ?_⟩
  · rintro entries rfl
    have hdictionary := h entries rfl
    have hunambiguous := hdictionary.unambiguous
    refine ⟨fun hknown => ⟨fun entries' hkeys => ofDatum_of_keys hkeys hknown, exists_unordered hdictionary hknown⟩,
      fun hknown => ⟨fun fault => ofDatum_eq_error_iff hunambiguous hknown,
        fun entries' hperm => ofDatum_of_perm hunambiguous hknown hperm⟩,
      fun hregular fault hfault => ?_⟩
    by_cases hknown : Known entries
    · exact .inr (isValidation_of_firstSpoiled hregular ((ofDatum_eq_error_iff hunambiguous hknown).mp hfault))
    · obtain ⟨names, -, hnames⟩ := exists_unknownSections hdictionary hknown hregular.comparable
      obtain rfl := Except.error.inj (hnames.symm.trans hfault)
      exact .inl trivial

/-- A tracker whose name is a number, before the settings of the solver. -/
def numberedTracker : List (Datum × Datum) :=
  [(.text "tracker", .mapping [(.text "name", .int 3)]),
    (.text "closed_orbit", .mapping [(.text "max_iterations", .int 5)])]

theorem document_fails_by_its_first_fault_numbered :
    (Datum.mapping numberedTracker).HasDictionary ∧ Known numberedTracker ∧
      FirstSpoiled numberedTracker (.validation "TrackerConfiguration" [⟨"name", .stringType⟩]) ∧
      ofDatum (.mapping numberedTracker.reverse) =
        .error (.validation "TrackerConfiguration" [⟨"name", .stringType⟩]) := by
  have hdictionary : (Datum.mapping numberedTracker).HasDictionary := by
    intro entries heq
    obtain rfl := Datum.mapping.inj heq
    exact ⟨by simp [numberedTracker, Document.isKey], List.pairwise_pair.mpr rfl⟩
  have hknown : Known numberedTracker := by
    simp [Known, numberedTracker, isSection, sections]
  have hread : ofDatum (.mapping numberedTracker) =
      .error (.validation "TrackerConfiguration" [⟨"name", .stringType⟩]) := by rfl
  obtain ⟨-, -, hentries⟩ := document_fails_by_its_first_fault (.mapping numberedTracker) hdictionary
  obtain ⟨hfirst, hperm⟩ := (hentries numberedTracker rfl).2.1 hknown
  exact ⟨hdictionary, hknown, (hfirst _).mp hread, (hperm _ numberedTracker.reverse_perm).trans hread⟩

/-- A number as a key of a known section is no fault of the document, and no fault of the section. -/
theorem numbered_key_is_no_keyword :
    IsDictionary [(.text "reference_momentum", .float 5), (.int 1, .int 2)] ∧
      ofDatum (.mapping [(.text "beam", .mapping [(.text "reference_momentum", .float 5), (.int 1, .int 2)])]) =
        .error .keywordType ∧
      ¬Fault.keywordType.IsConfiguration ∧ ¬Fault.keywordType.IsValidation := by
  exact ⟨⟨by simp [Document.isKey], List.pairwise_pair.mpr rfl⟩, rfl, id, id⟩

end Settings

end BeamOptics
