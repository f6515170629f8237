import Chunker.Proofs.Grammar.Exactness
import Chunker.Proofs.Grammar.Loading

/-!
# Which texts are loaded

A text is loaded if and only if it is a layout of statements that can be loaded: one start
directive with one category, every other directive about categories that earlier statements
introduce, no production without an element or with two governors, and nothing but gaps between the
tokens. One mistake goes unnoticed. The name of a directive is looked at when it speaks of its
first category, so a directive without categories may have any name. Where all directives without
categories have a meaning, the texts that are loaded are those of consistent statements.

## Main results

* `Grammar.loadable_of_applyAll` : statements that are applied can be loaded.
* `Grammar.exists_ofTextIn_eq_ok_iff` : the texts that are loaded.
* `Grammar.exists_ofTextIn_eq_of_emptyDirective` : a directive without categories may have any
  name.
* `Grammar.not_exists_consistent` : a directive without a meaning that goes unnoticed.
-/

namespace Chunker.Grammar

/-! ### Statements that are applied -/

namespace Draft

variable {d d' : Draft} {name : String} {cs : List Category}

/-- A directive that is followed speaks of categories which are no terminals, and if it speaks of
any, then it has a meaning. -/
private theorem of_declareAll_eq_ok (h : declareAll name d cs = .ok d') :
    cs ⊆ d.rules.nonterminals ∧ (cs ≠ [] → ∃ directive : Directive, name = directive.name) := by
  induction cs generalizing d with
  | nil => exact ⟨List.nil_subset _, fun hne => absurd rfl hne⟩
  | cons c cs ih =>
    obtain ⟨hc, directive, hdirective, h⟩ := declareAll_cons_eq_ok h
    obtain ⟨hcs, -⟩ := ih h
    rw [nonterminals_declare] at hcs
    exact ⟨List.cons_subset.2 ⟨hc, hcs⟩,
      fun _ => ⟨directive, Directive.ofName?_eq_some_iff.1 hdirective⟩⟩

private theorem of_apply_directive_eq_ok (h : d.apply (.directive name cs) = .ok d') :
    (name = "@START" → ∃ c, cs = [c]) ∧ (name ≠ "@START" →
      cs ⊆ d.rules.nonterminals ∧ (cs ≠ [] → ∃ directive : Directive, name = directive.name)) := by
  obtain ⟨hname, c, hcs, -⟩ | ⟨hname, h⟩ := apply_directive_eq_ok h
  · exact ⟨fun _ => ⟨c, hcs⟩, fun hne => absurd hname hne⟩
  · exact ⟨fun heq => absurd heq hname, fun _ => of_declareAll_eq_ok h⟩

/-- Each of several statements is applied to the draft that those before it leave. -/
private theorem exists_of_applyAll_eq_ok {before after : List Statement} {st : Statement}
    (h : d.applyAll (before ++ st :: after) = .ok d') :
    ∃ d₁ d₂, d.applyAll before = .ok d₁ ∧ d₁.apply st = .ok d₂ := by
  induction before generalizing d with
  | nil =>
    obtain ⟨d₂, hst, -⟩ := applyAll_cons_eq_ok h
    exact ⟨d, d₂, rfl, hst⟩
  | cons st' before ih =>
    obtain ⟨d₀, hst', h⟩ := applyAll_cons_eq_ok h
    obtain ⟨d₁, d₂, hbefore, hst⟩ := ih h
    exact ⟨d₁, d₂, by simp only [applyAll, hst', hbefore], hst⟩

end Draft

/-- A list of start directives with one category each, which name one start symbol in all. -/
private theorem eq_singleton_of_starts {sts : List Statement} {c : Category}
    (hsts : ∀ st ∈ sts, ∃ c, st = .directive "@START" [c])
    (h : sts.flatMap (Statement.categories "@START") = [c]) : sts = [.directive "@START" [c]] := by
  rcases sts with _ | ⟨st, _ | ⟨st', sts⟩⟩
  · cases h
  · obtain ⟨c', rfl⟩ := hsts st List.mem_cons_self
    exact h ▸ rfl
  · obtain ⟨c', rfl⟩ := hsts st List.mem_cons_self
    obtain ⟨c'', rfl⟩ := hsts st' (List.mem_cons_of_mem _ List.mem_cons_self)
    simp [Statement.categories] at h

/-- Statements of the right shape that can be applied and name a start symbol can be loaded. -/
theorem loadable_of_applyAll {listing : Listing} {sts : List Statement} {d : Draft}
    (hvalid : ∀ st ∈ sts, st.Valid listing) (happly : Draft.applyAll {} sts = .ok d)
    (hstart : d.rules.start ≠ "") : Loadable listing sts := by
  have hwf : ∀ st ∈ sts, st.WellFormed := fun st hst => (hvalid st hst).wellFormed
  have hcontents : d.HasContents (contents sts) := Draft.hasContents_applyAll [] hwf .empty happly
  -- What is checked of a directive, in terms of the statements before it.
  have hchecked {before after : List Statement} {name : String} {cs : List Category}
      (hsts : sts = before ++ .directive name cs :: after) :
      (name = "@START" → ∃ c, cs = [c]) ∧ (name ≠ "@START" →
        cs ⊆ (contents before).introduced ∧
          (cs ≠ [] → ∃ directive : Directive, name = directive.name)) := by
    subst hsts
    obtain ⟨d₁, d₂, hbefore, hst⟩ := Draft.exists_of_applyAll_eq_ok happly
    have hcontents₁ : d₁.HasContents (contents before) :=
      Draft.hasContents_applyAll [] (fun st h => hwf st (List.mem_append_left _ h)) .empty hbefore
    refine (Draft.of_apply_directive_eq_ok hst).imp_right fun h hname => ?_
    refine (h hname).imp_left fun hcs c hc => ?_
    rw [Contents.introduced, List.mem_append, ← hcontents₁.nonterminals]
    exact hcs hc
  refine ⟨hvalid, fun name cs hmem hname hne => ?_, ⟨d.rules.start, ?_⟩,
    fun before name cs after hsts hname => ((hchecked hsts).2 hname).1⟩
  · obtain ⟨before, after, hsts⟩ := List.append_of_mem hmem
    exact ((hchecked hsts).2 hname).2 hne
  · have hstarts := hcontents.starts.resolve_left fun hnone => hstart (by
      rw [hcontents.start, hnone]
      rfl)
    rw [starts_contents_eq] at hstarts
    refine eq_singleton_of_starts (fun st hst => ?_) hstarts.1
    obtain ⟨hmem, hisStart⟩ := List.mem_filter.1 hst
    cases st with
    | rules head ps => cases hisStart
    | directive name cs =>
      obtain rfl : name = "@START" := by simpa [Statement.isStart] using hisStart
      obtain ⟨before, after, hsts⟩ := List.append_of_mem hmem
      obtain ⟨c, rfl⟩ := (hchecked hsts).1 rfl
      exact ⟨c, rfl⟩

/-! ### Texts -/

section Texts

variable {source : Source} {dir text : String}

theorem readStatements_of_ofTextIn {gr : Grammar} (h : ofTextIn source dir text = .ok gr) :
    readStatements (entries source dir) text.toList = ⟨statementsOf source dir text, none⟩ := by
  have herror : (readStatements (entries source dir) text.toList).error? = none := by
    simp only [ofTextIn] at h
    split at h
    · cases h
    · cases h
    · assumption
  rw [statementsOf, ← herror]

/-- The statements of a text that is loaded can be loaded, and the text is a layout of them. -/
theorem loadable_statementsOf {gr : Grammar} (h : ofTextIn source dir text = .ok gr) :
    LaidOut [] ((statementsOf source dir text).flatMap Statement.tokens) text.toList ∧
      Loadable (entries source dir) (statementsOf source dir text) := by
  obtain ⟨d, happly, -, hstart⟩ := exists_draft_of_ofTextIn h
  exact ⟨(readStatements_eq_iff.1 (readStatements_of_ofTextIn h)).2,
    loadable_of_applyAll (statementsOf_valid source dir text) happly hstart⟩

theorem Loadable.exists_ofTextIn_eq {sts : List Statement} (h : Loadable (entries source dir) sts)
    (htext : LaidOut [] (sts.flatMap Statement.tokens) text.toList) :
    ∃ gr, ofTextIn source dir text = .ok gr := by
  obtain ⟨d, happly, -, hstart⟩ := h.exists_draft
  obtain ⟨warnings, hload⟩ := Grammar.exists_ofTextIn_eq
    (readStatements_layout h.valid htext) happly hstart
  exact ⟨_, hload⟩

theorem statementsOf_eq {sts : List Statement} (hsts : ∀ st ∈ sts, st.Valid (entries source dir))
    (htext : LaidOut [] (sts.flatMap Statement.tokens) text.toList) :
    statementsOf source dir text = sts := by
  rw [statementsOf, readStatements_layout hsts htext]

/-- **The texts that are loaded.** A text is loaded if and only if it is a layout of statements
that can be loaded. If the directives of the text that have no categories have a meaning, it is
loaded if and only if it is a layout of consistent statements. -/
theorem exists_ofTextIn_eq_ok_iff (source : Source) (dir text : String) :
    ((∃ gr, ofTextIn source dir text = .ok gr) ↔
      ∃ sts, LaidOut [] (sts.flatMap Statement.tokens) text.toList ∧
        Loadable (entries source dir) sts) ∧
    ((∀ name, .directive name [] ∈ statementsOf source dir text → name ≠ "@START" →
        ∃ directive : Directive, name = directive.name) →
      ((∃ gr, ofTextIn source dir text = .ok gr) ↔
        ∃ sts, LaidOut [] (sts.flatMap Statement.tokens) text.toList ∧
          Consistent (entries source dir) sts)) := by
  refine ⟨⟨?_, ?_⟩, fun hknown => ⟨?_, ?_⟩⟩
  · rintro ⟨gr, hload⟩
    exact ⟨_, loadable_statementsOf hload⟩
  · rintro ⟨sts, htext, hsts⟩
    exact hsts.exists_ofTextIn_eq htext
  · rintro ⟨gr, hload⟩
    obtain ⟨htext, hsts⟩ := loadable_statementsOf hload
    exact ⟨_, htext, consistent_iff.2 ⟨hsts, hknown⟩⟩
  · rintro ⟨sts, htext, hsts⟩
    exact (consistent_iff.1 hsts).1.exists_ofTextIn_eq htext

end Texts

/-- The name and the categories of a directive. -/
def Statement.directive? : Statement → Option (String × List Category)
  | .rules _ _ => none
  | .directive name cs => some (name, cs)

/-- A text with a comment inside a rule, and a directive without categories that has a meaning. -/
theorem exists_consistent_of_comment_in_rule :
    let text := "@FLAT . np ==> DT, +NN % a noun\n. @START S . @PRIOR np S ."
    (∀ name, .directive name [] ∈ statementsOf Source.empty "." text → name ≠ "@START" →
        ∃ directive : Directive, name = directive.name) ∧
      (∃ gr, ofText Source.empty text = .ok gr) ∧
        ∃ sts, LaidOut [] (sts.flatMap Statement.tokens) text.toList ∧
          Consistent (entries Source.empty ".") sts := by
  intro text
  have hdirectives : (statementsOf Source.empty "." text).filterMap Statement.directive? =
      [("@FLAT", []), ("@START", ["S"]), ("@PRIOR", ["np", "S"])] := by decide +kernel
  have hknown : ∀ name, .directive name [] ∈ statementsOf Source.empty "." text →
      name ≠ "@START" → ∃ directive : Directive, name = directive.name := by
    intro name hmem _
    have hname : (name, []) ∈ (statementsOf Source.empty "." text).filterMap Statement.directive? :=
      List.mem_filterMap.2 ⟨_, hmem, rfl⟩
    rw [hdirectives] at hname
    simp only [List.mem_cons, Prod.mk.injEq, reduceCtorEq, and_false, List.not_mem_nil, or_false,
      and_true] at hname
    exact ⟨.flat, hname⟩
  obtain ⟨warnings, hload⟩ :
      ∃ warnings, ofText Source.empty text = .ok ⟨RuleSet.ofText text, warnings⟩ :=
    RuleSet.exists_ofText_eq (by decide +kernel)
  obtain ⟨-, hiff⟩ := exists_ofTextIn_eq_ok_iff Source.empty "." text
  exact ⟨hknown, ⟨_, hload⟩, (hiff hknown).1 ⟨_, hload⟩⟩

/-! ### Directives without categories -/

section EmptyDirective

variable {name : String}

/-- A directive without categories and the start directive are loaded, whatever the name. -/
private theorem loadable_emptyDirective (listing : Listing) (hname : IsDirectiveName name.toList)
    (hne : name ≠ "@START") : Loadable listing [.directive name [], .directive "@START" ["S"]] where
  valid := by
    have hS : IsName "S".toList :=
      isName_of_category? (show category? ['S'] = some (['S'], []) from rfl)
    refine List.forall_mem_cons.2 ⟨⟨hname, fun c hc => absurd hc List.not_mem_nil⟩, ?_⟩
    exact List.forall_mem_singleton.2 ⟨isDirectiveName_start, List.forall_mem_singleton.2 hS⟩
  known name' cs hmem hname' hcs := by
    rcases List.mem_cons.1 hmem with heq | hmem
    · exact absurd (Statement.directive.inj heq).2 hcs
    · exact absurd (Statement.directive.inj (List.mem_singleton.1 hmem)).1 hname'
  start := ⟨"S", by simp [Statement.isStart, hne]⟩
  introduced before name' cs after hsts hname' := by
    have hmem : .directive name' cs ∈ [Statement.directive name [], .directive "@START" ["S"]] := by
      rw [hsts]
      exact List.mem_append_right before List.mem_cons_self
    rcases List.mem_cons.1 hmem with heq | hmem
    · exact (Statement.directive.inj heq).2 ▸ List.nil_subset _
    · exact absurd (Statement.directive.inj (List.mem_singleton.1 hmem)).1 hname'

private theorem laidOut_emptyDirective (name : String) :
    LaidOut [] ([Statement.directive name [], .directive "@START" ["S"]].flatMap Statement.tokens)
      (name ++ " . @START S .").toList := by
  have hblank : IsGap [' '] := .blank (by decide) .nil
  have hlayout : LaidOut [] [name.toList, ['.'], "@START".toList, ['S'], ['.']]
      (name.toList ++ ([' '] ++ (['.'] ++ ([' '] ++ ("@START".toList ++ ([' '] ++ (['S'] ++
        ([' '] ++ (['.'] ++ []))))))))) :=
    .token rfl <| .gap hblank (by decide) <| .token rfl <| .gap hblank (by decide) <|
      .token rfl <| .gap hblank (by decide) <| .token rfl <| .gap hblank (by decide) <|
      .token rfl <| .nil (.closed .nil)
  simpa [Statement.tokens] using hlayout

/-- A directive without a meaning goes unnoticed if it has no categories. -/
theorem exists_ofTextIn_eq_of_emptyDirective (source : Source) (dir : String)
    (hname : IsDirectiveName name.toList) (hne : name ≠ "@START") :
    (∃ gr, ofTextIn source dir (name ++ " . @START S .") = .ok gr) ∧
      (Directive.ofName? name = none →
        ¬ ∃ sts, LaidOut [] (sts.flatMap Statement.tokens) (name ++ " . @START S .").toList ∧
          Consistent (entries source dir) sts) := by
  have hsts := loadable_emptyDirective (entries source dir) hname hne
  have htext := laidOut_emptyDirective name
  refine ⟨hsts.exists_ofTextIn_eq htext, ?_⟩
  rintro hnone ⟨sts, htext', hsts'⟩
  -- The text is a layout of no other statements.
  obtain rfl := (statementsOf_eq hsts'.valid htext').symm.trans (statementsOf_eq hsts.valid htext)
  obtain ⟨directive, hdirective⟩ := hsts'.known name [] List.mem_cons_self hne
  rw [Directive.ofName?_eq_some_iff.2 hdirective] at hnone
  cases hnone

end EmptyDirective

/-- Not every text that is loaded is a layout of consistent statements. -/
theorem not_exists_consistent :
    (∃ gr, ofText Source.empty "@FOO . @START S ." = .ok gr) ∧
      ¬ ∃ sts, LaidOut [] (sts.flatMap Statement.tokens) "@FOO . @START S .".toList ∧
        Consistent (entries Source.empty ".") sts := by
  have hname : IsDirectiveName "@FOO".toList :=
    isDirectiveName_of_directiveName? (s := "@FOO".toList) rfl
  have htext : "@FOO" ++ " . @START S ." = "@FOO . @START S ." := by decide
  obtain ⟨hload, hnot⟩ :=
    exists_ofTextIn_eq_of_emptyDirective Source.empty "." hname (by decide)
  rw [htext] at hload hnot
  exact ⟨hload, hnot (by decide)⟩

end Chunker.Grammar
