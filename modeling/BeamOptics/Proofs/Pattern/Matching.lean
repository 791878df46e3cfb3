import BeamOptics.Pattern.Matching

/-!
# Texts that patterns take

Matching lists the places to which a pattern leads. For patterns without groups and assertions these are the places
behind the texts that the pattern takes, whatever the order in which they are listed, and a full match is one of these
texts.
-/

namespace BeamOptics

namespace Pattern

namespace Place

/-- `q` is the place behind a text that is taken from `p`. -/
structure Passes (p : Place) (text : List Char) (q : Place) : Prop where
  rest : p.rest = text ++ q.rest
  before : q.before = text.reverse ++ p.before
  captures : q.captures = p.captures

theorem passes_nil_iff {p q : Place} : p.Passes [] q ↔ q = p := by
  constructor
  · rintro ⟨hrest, hbefore, hcaptures⟩
    cases p
    cases q
    simp_all
  · rintro rfl
    exact ⟨rfl, rfl, rfl⟩

theorem passes_append_iff {p q : Place} {first second : List Char} :
    p.Passes (first ++ second) q ↔ ∃ r, p.Passes first r ∧ r.Passes second q := by
  constructor
  · rintro ⟨hrest, hbefore, hcaptures⟩
    refine ⟨⟨first.reverse ++ p.before, second ++ q.rest, p.captures⟩, ⟨?_, rfl, rfl⟩, ⟨rfl, ?_, hcaptures⟩⟩
    · rw [hrest, List.append_assoc]
    · rw [hbefore, List.reverse_append, List.append_assoc]
  · rintro ⟨r, hfirst, hsecond⟩
    refine ⟨?_, ?_, hsecond.captures.trans hfirst.captures⟩
    · rw [hfirst.rest, hsecond.rest, List.append_assoc]
    · rw [hsecond.before, hfirst.before, List.reverse_append, List.append_assoc]

theorem mem_take?_iff {p q : Place} {test : Char → Bool} :
    q ∈ (p.take? test).toList ↔ ∃ c, test c = true ∧ p.Passes [c] q := by
  rw [Option.mem_toList]
  obtain ⟨before, rest, captures⟩ := p
  cases rest with
  | nil => exact iff_of_false nofun fun ⟨c, _, hpasses⟩ => nomatch hpasses.rest
  | cons d rest =>
    by_cases hd : test d = true
    · have htaken : take? ⟨before, d :: rest, captures⟩ test = some ⟨d :: before, rest, captures⟩ := if_pos hd
      rw [htaken]
      constructor
      · rintro ⟨⟩
        exact ⟨d, hd, rfl, rfl, rfl⟩
      · rintro ⟨c, -, hrest, hbefore, hcaptures⟩
        obtain ⟨rfl, rfl⟩ := List.cons_eq_cons.mp hrest
        cases q
        simp_all
    · have hnone : take? ⟨before, d :: rest, captures⟩ test = none := if_neg hd
      rw [hnone]
      refine iff_of_false nofun ?_
      rintro ⟨c, hc, hpasses⟩
      obtain ⟨rfl, -⟩ := List.cons_eq_cons.mp hpasses.rest
      exact hd hc

end Place

/-- From each place the pattern leads to the places behind these texts, and to no others. -/
def Node.Takes (node : Node) (texts : List Char → Prop) : Prop :=
  ∀ p q, q ∈ node.run p ↔ ∃ text, texts text ∧ p.Passes text q

theorem Node.Takes.congr {node : Node} {texts texts' : List Char → Prop} (h : node.Takes texts)
    (hsame : ∀ text, texts text ↔ texts' text) : node.Takes texts' := by
  intro p q
  rw [h p q]
  exact exists_congr fun text => and_congr_left fun _ => hsame text

theorem Node.Takes.fullMatch_iff {node : Node} {texts : List Char → Prop} (h : node.Takes texts) (text : String) :
    node.fullMatch text = true ↔ texts text.toList := by
  rw [fullMatch, List.any_eq_true]
  constructor
  · rintro ⟨q, hq, hend⟩
    obtain ⟨taken, htaken, hpasses⟩ := (h _ q).mp hq
    have hall : text.toList = taken := by
      rw [← List.append_nil taken, ← List.isEmpty_iff.mp hend]
      exact hpasses.rest
    rwa [hall]
  · intro htext
    refine ⟨⟨text.toList.reverse, [], []⟩, (h _ _).mpr ⟨text.toList, htext, ?_⟩, rfl⟩
    exact ⟨(List.append_nil _).symm, (List.append_nil _).symm, rfl⟩

theorem takes_empty : Node.empty.Takes (· = []) := by
  intro p q
  change q ∈ [p] ↔ _
  rw [List.mem_singleton, exists_eq_left, Place.passes_nil_iff]

theorem takes_char (test : CharTest) : (Node.char test).Takes fun text => ∃ c, test.has c = true ∧ text = [c] := by
  intro p q
  change q ∈ (p.take? fun c => test.has c).toList ↔ _
  rw [Place.mem_take?_iff]
  constructor
  · rintro ⟨c, hc, hpasses⟩
    exact ⟨[c], ⟨c, hc, rfl⟩, hpasses⟩
  · rintro ⟨_, ⟨c, hc, rfl⟩, hpasses⟩
    exact ⟨c, hc, hpasses⟩

theorem Node.Takes.seq {first second : Node} {texts texts' : List Char → Prop} (h : first.Takes texts)
    (h' : second.Takes texts') :
    (Node.seq first second).Takes fun text => ∃ front back, texts front ∧ texts' back ∧ text = front ++ back := by
  intro p q
  change q ∈ (first.run p).flatMap second.run ↔ _
  rw [List.mem_flatMap]
  constructor
  · rintro ⟨r, hr, hq⟩
    obtain ⟨front, hfront, hpasses⟩ := (h p r).mp hr
    obtain ⟨back, hback, hpasses'⟩ := (h' r q).mp hq
    exact ⟨front ++ back, ⟨front, back, hfront, hback, rfl⟩, Place.passes_append_iff.mpr ⟨r, hpasses, hpasses'⟩⟩
  · rintro ⟨_, ⟨front, back, hfront, hback, rfl⟩, hpasses⟩
    obtain ⟨r, hpasses, hpasses'⟩ := Place.passes_append_iff.mp hpasses
    exact ⟨r, (h p r).mpr ⟨front, hfront, hpasses⟩, (h' r q).mpr ⟨back, hback, hpasses'⟩⟩

/-! ### Fixed texts -/

theorem has_literalTest {c d : Char} : (literalTest {} d).has c = true ↔ d = c := by
  simp [literalTest, CharTest.has, ClassItem.has, Char.toNat_inj]

theorem takes_literal (fixed : List Char) : (literal fixed).Takes (· = fixed) := by
  induction fixed with
  | nil => exact takes_empty
  | cons d rest ih =>
    refine ((takes_char (literalTest {} d)).seq ih).congr fun text => ?_
    constructor
    · rintro ⟨_, _, ⟨c, hc, rfl⟩, rfl, rfl⟩
      rw [has_literalTest.mp hc]
      rfl
    · rintro rfl
      exact ⟨[d], rest, ⟨d, has_literalTest.mpr rfl, rfl⟩, rfl, rfl⟩

/-! ### Repeated characters -/

/-- With enough rounds for what is left, repetition leads behind every text of characters that pass the test. -/
theorem mem_iterate_char_iff (test : CharTest) (greed : Greed) {fuel : Nat} {p q : Place}
    (hfuel : p.rest.length ≤ fuel) :
    q ∈ iterate (Node.char test).run greed fuel 0 none p ↔
      ∃ text, (∀ c ∈ text, test.has c = true) ∧ p.Passes text q := by
  induction fuel generalizing p with
  | zero =>
    have hnothing : p.rest = [] := List.eq_nil_of_length_eq_zero (Nat.le_zero.mp hfuel)
    rw [iterate, List.mem_singleton, ← Place.passes_nil_iff]
    constructor
    · intro hpasses
      exact ⟨[], nofun, hpasses⟩
    · rintro ⟨text, -, hpasses⟩
      have htext : text = [] := (List.append_eq_nil_iff.mp (hpasses.rest.symm.trans hnothing)).1
      rwa [htext] at hpasses
  | succ fuel ih =>
    have hlonger : q ∈ ((((Node.char test).run p).eraseDups.filter fun r => r.rest.length < p.rest.length).flatMap
        (iterate (Node.char test).run greed fuel 0 none)) ↔
        ∃ c text, test.has c = true ∧ (∀ d ∈ text, test.has d = true) ∧ p.Passes (c :: text) q := by
      simp only [List.mem_flatMap, List.mem_filter, List.mem_eraseDups, decide_eq_true_eq]
      constructor
      · rintro ⟨r, ⟨hr, hshorter⟩, hq⟩
        obtain ⟨_, ⟨c, hc, rfl⟩, hpasses⟩ := (takes_char test p r).mp hr
        obtain ⟨text, htext, hpasses'⟩ := (ih (by omega)).mp hq
        exact ⟨c, text, hc, htext, Place.passes_append_iff.mpr ⟨r, hpasses, hpasses'⟩⟩
      · rintro ⟨c, text, hc, htext, hpasses⟩
        obtain ⟨r, hpasses, hpasses'⟩ := Place.passes_append_iff.mp (show p.Passes ([c] ++ text) q from hpasses)
        have hlength : p.rest.length = r.rest.length + 1 := congrArg List.length hpasses.rest
        refine ⟨r, ⟨(takes_char test p r).mpr ⟨[c], ⟨c, hc, rfl⟩, hpasses⟩, by omega⟩, ?_⟩
        exact (ih (by omega)).mpr ⟨text, htext, hpasses'⟩
    have hsplit : q ∈ iterate (Node.char test).run greed (fuel + 1) 0 none p ↔
        q = p ∨ ∃ c text, test.has c = true ∧ (∀ d ∈ text, test.has d = true) ∧ p.Passes (c :: text) q := by
      rw [← hlonger, iterate]
      split
      · exact List.mem_cons
      · exact List.mem_append.trans (or_comm.trans (or_congr_left List.mem_singleton))
    rw [hsplit]
    constructor
    · rintro (hq | ⟨c, text, hc, htext, hpasses⟩)
      · exact ⟨[], nofun, Place.passes_nil_iff.mpr hq⟩
      · exact ⟨c :: text, List.forall_mem_cons.mpr ⟨hc, htext⟩, hpasses⟩
    · rintro ⟨text, htext, hpasses⟩
      cases text with
      | nil => exact .inl (Place.passes_nil_iff.mp hpasses)
      | cons c text =>
        obtain ⟨hc, htext⟩ := List.forall_mem_cons.mp htext
        exact .inr ⟨c, text, hc, htext, hpasses⟩

theorem takes_anyText : anyText.Takes fun text => '\n' ∉ text := by
  intro p q
  change q ∈ iterate (Node.char (.any false)).run .greedy (p.rest.length + 0 + 1) 0 none p ↔ _
  rw [mem_iterate_char_iff _ _ (by omega)]
  refine exists_congr fun text => and_congr_left fun _ => ?_
  simp only [CharTest.has, Bool.false_or, decide_eq_true_eq]
  exact ⟨fun h hmem => h _ hmem rfl, fun h c hc heq => h (heq ▸ hc)⟩

end Pattern

end BeamOptics
