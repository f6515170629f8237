import Chunker.Proofs.Grammar.Contents
import Chunker.Proofs.Grammar.Reading

/-!
# Loading a grammar

A list of statements is consistent if its directives are known, it names one start symbol, and
every other directive speaks of categories that earlier statements introduce. All texts in which
consistent statements are laid out are read as the same rule set: the one that has the contents of
the statements. To be loaded, statements need not be consistent: the name of a directive without
categories is not looked at.

## Main definitions

* `Grammar.Consistent` : the lists of statements that fit together.
* `Grammar.Loadable` : the lists of statements that are loaded.

## Main results

* `Grammar.Loadable.exists_draft` : statements that are loaded leave a draft with their contents.
* `Grammar.exists_hasContents_of_laidOut` : every layout of consistent statements is loaded.
-/

namespace Chunker.Grammar

/-! ### Consistent statements -/

/-- Holds of the start directive. -/
def Statement.isStart : Statement → Bool
  | .rules _ _ => false
  | .directive name _ => name == "@START"

/-- The categories that statements introduce: those of rules, and the start symbol. -/
def Contents.introduced (k : Contents) : List Category :=
  k.starts ++ k.rules.map Rule.head

/-- The lists of statements that fit together, with the entries of the files referred to. Every
directive has a meaning, there is one start directive, which has one category, and a directive
speaks of what earlier statements introduce. -/
structure Consistent (listing : Listing) (sts : List Statement) : Prop where
  valid : ∀ st ∈ sts, st.Valid listing
  known : ∀ name cs, .directive name cs ∈ sts → name ≠ "@START" →
    ∃ directive : Directive, name = directive.name
  start : ∃ c, sts.filter Statement.isStart = [.directive "@START" [c]]
  introduced : ∀ before name cs after, sts = before ++ .directive name cs :: after →
    name ≠ "@START" → cs ⊆ (contents before).introduced

/-- The lists of statements that are loaded. What a directive without categories is called does not
matter: it says nothing. Otherwise these lists are as the consistent ones. -/
structure Loadable (listing : Listing) (sts : List Statement) : Prop where
  valid : ∀ st ∈ sts, st.Valid listing
  known : ∀ name cs, .directive name cs ∈ sts → name ≠ "@START" → cs ≠ [] →
    ∃ directive : Directive, name = directive.name
  start : ∃ c, sts.filter Statement.isStart = [.directive "@START" [c]]
  introduced : ∀ before name cs after, sts = before ++ .directive name cs :: after →
    name ≠ "@START" → cs ⊆ (contents before).introduced

/-- Statements are consistent if they are loaded and the directives without categories have a
meaning as well. -/
theorem consistent_iff {listing : Listing} {sts : List Statement} :
    Consistent listing sts ↔ Loadable listing sts ∧
      ∀ name, .directive name [] ∈ sts → name ≠ "@START" →
        ∃ directive : Directive, name = directive.name := by
  constructor
  · intro h
    exact ⟨⟨h.valid, fun name cs hmem hname _ => h.known name cs hmem hname, h.start,
      h.introduced⟩, fun name hmem hname => h.known name [] hmem hname⟩
  · rintro ⟨h, hempty⟩
    refine ⟨h.valid, fun name cs hmem hname => ?_, h.start, h.introduced⟩
    cases cs with
    | nil => exact hempty name hmem hname
    | cons c cs => exact h.known name _ hmem hname (List.cons_ne_nil c cs)

theorem starts_contents_eq (sts : List Statement) :
    (contents sts).starts =
      (sts.filter Statement.isStart).flatMap (Statement.categories "@START") := by
  simp only [contents]
  induction sts with
  | nil => rfl
  | cons st sts ih =>
    rw [List.flatMap_cons, ih]
    cases st with
    | rules head ps => rfl
    | directive name cs =>
      by_cases hname : name = "@START"
      · rw [List.filter_cons_of_pos (by simpa [Statement.isStart] using hname), List.flatMap_cons]
      · rw [List.filter_cons_of_neg (by simpa [Statement.isStart] using hname),
          Statement.categories, if_neg hname, List.nil_append]

namespace Draft

variable {d : Draft}

theorem nonterminals_declare (d : Draft) (directive : Directive) (c : Category) :
    (d.declare directive c).rules.nonterminals = d.rules.nonterminals := by
  cases directive <;> rfl

/-- A directive may speak of what the rules so far introduce. -/
private theorem exists_declareAll_eq (directive : Directive) {cs : List Category}
    (hcs : cs ⊆ d.rules.nonterminals) : ∃ d', declareAll directive.name d cs = .ok d' := by
  induction cs generalizing d with
  | nil => exact ⟨d, rfl⟩
  | cons c cs ih =>
    obtain ⟨hc, hcs⟩ := List.cons_subset.1 hcs
    obtain ⟨d', hd'⟩ := ih (d := d.declare directive c) (d.nonterminals_declare directive c ▸ hcs)
    refine ⟨d', ?_⟩
    rw [declareAll, if_neg (by simpa [RuleSet.isTerminal] using hc),
      Directive.ofName?_eq_some_iff.2 rfl]
    exact hd'

end Draft

namespace Loadable

variable {listing : Listing} {sts before after : List Statement} {d : Draft}

private theorem exists_apply_eq {st : Statement} (h : Loadable listing (before ++ st :: after))
    (hd : d.HasContents (contents before)) : ∃ d', d.apply st = .ok d' := by
  cases st with
  | rules head ps => exact ⟨_, rfl⟩
  | directive name cs =>
    by_cases hname : name = "@START"
    · obtain ⟨c, hstart⟩ := h.start
      rw [List.filter_append, List.filter_cons_of_pos (by simpa [Statement.isStart] using hname)]
        at hstart
      -- The only start directive is this one, so none stands before it.
      have hbefore : before.filter Statement.isStart = [] := by
        have hlength := congrArg List.length hstart
        simp only [List.length_append, List.length_cons, List.length_nil] at hlength
        exact List.eq_nil_of_length_eq_zero (by omega)
      rw [hbefore, List.nil_append] at hstart
      obtain ⟨-, rfl⟩ := Statement.directive.inj (List.cons_eq_cons.1 hstart).1
      have hempty : d.rules.start = "" := by
        rw [hd.start, starts_contents_eq, hbefore]
        rfl
      exact ⟨d.setStart c, by simp [Draft.apply, hname, hempty]⟩
    · by_cases hne : cs = []
      · exact ⟨d, by simp only [Draft.apply, if_neg hname, hne, Draft.declareAll]⟩
      obtain ⟨directive, rfl⟩ := h.known name cs (by simp) hname hne
      have hcs : cs ⊆ d.rules.nonterminals := fun c hc => by
        have := h.introduced before _ cs after rfl hname hc
        rwa [Contents.introduced, List.mem_append, ← hd.nonterminals] at this
      obtain ⟨d', hd'⟩ := Draft.exists_declareAll_eq directive hcs
      exact ⟨d', by simp only [Draft.apply, if_neg hname, hd']⟩

private theorem exists_applyAll_eq (before : List Statement)
    (h : Loadable listing (before ++ after)) (hd : d.HasContents (contents before)) :
    ∃ d', d.applyAll after = .ok d' := by
  induction after generalizing d before with
  | nil => exact ⟨d, rfl⟩
  | cons st after ih =>
    obtain ⟨d₁, hd₁⟩ := h.exists_apply_eq hd
    have hst := (h.valid st (by simp)).wellFormed
    obtain ⟨d', hd'⟩ := ih (before ++ [st]) (by simpa using h)
      (Draft.hasContents_apply hst hd hd₁)
    exact ⟨d', by simp only [Draft.applyAll, hd₁, hd']⟩

/-- Statements that are loaded leave a draft with their contents, which has a start symbol. -/
theorem exists_draft (h : Loadable listing sts) :
    ∃ d, Draft.applyAll {} sts = .ok d ∧ d.HasContents (contents sts) ∧ d.rules.start ≠ "" := by
  obtain ⟨d, hd⟩ := exists_applyAll_eq [] h Draft.HasContents.empty
  have hcontents : d.HasContents (contents sts) :=
    Draft.hasContents_applyAll [] (fun st hst => (h.valid st hst).wellFormed) .empty hd
  refine ⟨d, hd, hcontents, ?_⟩
  obtain ⟨c, hstart⟩ := h.start
  have hmem : .directive "@START" [c] ∈ sts :=
    (List.mem_filter.1 (hstart ▸ List.mem_singleton_self _)).1
  rw [hcontents.start, starts_contents_eq, hstart]
  exact ((h.valid _ hmem).2 c List.mem_cons_self).ne_empty

theorem append_directive (h : Loadable listing sts) (directive : Directive) {cs : List Category}
    (hnames : ∀ c ∈ cs, IsName c.toList) (hcs : cs ⊆ (contents sts).introduced) :
    Loadable listing (sts ++ [.directive directive.name cs]) where
  valid := by
    have hread : directiveName? directive.name.toList = some (directive.name.toList, []) := by
      cases directive <;> rfl
    exact List.forall_mem_append.2 ⟨h.valid, List.forall_mem_singleton.2
      ⟨isDirectiveName_of_directiveName? hread, hnames⟩⟩
  known name cs' hmem hname hne := by
    rcases List.mem_append.1 hmem with hmem | hmem
    · exact h.known name cs' hmem hname hne
    · exact ⟨directive, (Statement.directive.inj (List.mem_singleton.1 hmem)).1⟩
  start := by
    have hstart : Statement.isStart (.directive directive.name cs) = false := by
      cases directive <;> rfl
    obtain ⟨c, hc⟩ := h.start
    exact ⟨c, by simp [hc, hstart]⟩
  introduced before name cs' after hsplit hname := by
    rcases List.eq_nil_or_concat after with rfl | ⟨after, last, rfl⟩
    · obtain ⟨rfl, hlast⟩ := List.append_inj' hsplit rfl
      obtain ⟨-, rfl⟩ := Statement.directive.inj (List.singleton_inj.1 hlast)
      exact hcs
    · rw [List.concat_eq_append, ← List.cons_append, ← List.append_assoc] at hsplit
      exact h.introduced before name cs' after (List.append_inj' hsplit rfl).1 hname

end Loadable

/-- Consistent statements leave a draft with their contents, which has a start symbol. -/
theorem Consistent.exists_draft {listing : Listing} {sts : List Statement}
    (h : Consistent listing sts) :
    ∃ d, Draft.applyAll {} sts = .ok d ∧ d.HasContents (contents sts) ∧ d.rules.start ≠ "" :=
  (consistent_iff.1 h).1.exists_draft

/-! ### Texts -/

/-- A text is loaded if its statements can be applied and name a start symbol. -/
theorem exists_ofTextIn_eq {source : Source} {dir text : String} {sts : List Statement} {d : Draft}
    (hread : readStatements (entries source dir) text.toList = ⟨sts, none⟩)
    (happly : Draft.applyAll {} sts = .ok d) (hstart : d.rules.start ≠ "") :
    ∃ warnings, ofTextIn source dir text = .ok ⟨d.rules, warnings⟩ := by
  refine ⟨d.warnings ++ Draft.closingWarnings d.rules, ?_⟩
  simp only [ofTextIn, hread, happly, Draft.finish, if_neg hstart]

/-- **Every layout of consistent statements is loaded.** The rule set that results has the
contents of the statements. -/
theorem exists_hasContents_of_laidOut {source : Source} {dir text : String} {sts : List Statement}
    (hsts : Consistent (entries source dir) sts)
    (htext : LaidOut [] (sts.flatMap Statement.tokens) text.toList) :
    ∃ g warnings, ofTextIn source dir text = .ok ⟨g, warnings⟩ ∧ g.HasContents (contents sts) := by
  obtain ⟨d, happly, hcontents, hstart⟩ := hsts.exists_draft
  obtain ⟨warnings, hload⟩ := exists_ofTextIn_eq (readStatements_layout hsts.valid htext) happly
    hstart
  exact ⟨d.rules, warnings, hload, hcontents.toHasContents⟩

/-- A rule with a file, a governor and two productions, and two directives. -/
def phraseStatements : List Statement :=
  [.rules "np" [[⟨false, "a*", .listed "(\"f\")" ["(x)"]⟩, ⟨true, "n", .absent⟩],
      [⟨false, "n", .literal "<y>"⟩]],
    .directive "@START" ["np"], .directive "@PRIOR" ["np"]]

/-- The statements with a gap only where a token needs one, or a comment. -/
def phraseText : String :=
  "np==>a*%1\n(\"f\"),+ n|n<y>.@START np.@PRIOR%2\nnp.%3"

private theorem consistent_phraseStatements :
    Consistent (entries (fun _ => .ok "x") ".") phraseStatements := by
  have hn : IsName ['n'] :=
    isName_of_category? (show category? ['n'] = some (['n'], []) from rfl)
  have hnp : IsName ['n', 'p'] :=
    isName_of_category? (show category? ['n', 'p'] = some (['n', 'p'], []) from rfl)
  have ha : IsName ['a', '*'] :=
    isName_of_category? (show category? ['a', '*'] = some (['a', '*'], []) from rfl)
  have hf : reference? .form ['(', '"', 'f', '"', ')'] =
      some (['(', '"', 'f', '"', ')'], []) := by decide +kernel
  have hy : literal? .lemmaForm ['<', 'y', '>'] = some (['<', 'y', '>'], []) := by
    decide +kernel
  have hprior : directiveName? "@PRIOR".toList = some ("@PRIOR".toList, []) := rfl
  constructor
  case valid =>
    refine List.forall_mem_cons.2 ⟨⟨hnp, by decide, ?_⟩, ?_⟩
    · refine List.forall_mem_cons.2 ⟨⟨by decide, ?_, by decide⟩, ?_⟩
      · exact List.forall_mem_cons.2
          ⟨⟨ha, isReference_of_reference? hf, rfl⟩, List.forall_mem_singleton.2 ⟨hn, trivial⟩⟩
      · exact List.forall_mem_singleton.2
          ⟨by decide, List.forall_mem_singleton.2 ⟨hn, isLiteral_of_literal? hy⟩, by decide⟩
    · exact List.forall_mem_cons.2 ⟨⟨isDirectiveName_start, List.forall_mem_singleton.2 hnp⟩,
        List.forall_mem_singleton.2
          ⟨isDirectiveName_of_directiveName? hprior, List.forall_mem_singleton.2 hnp⟩⟩
  case known =>
    intro name cs hmem hname
    simp only [phraseStatements, List.mem_cons, reduceCtorEq, Statement.directive.injEq,
      List.not_mem_nil, or_false, false_or] at hmem
    rcases hmem with ⟨rfl, -⟩ | ⟨rfl, -⟩
    · exact absurd rfl hname
    · exact ⟨.prior, rfl⟩
  case start => exact ⟨"np", rfl⟩
  case introduced =>
    intro before name cs after h hname
    rcases before with _ | ⟨st, _ | ⟨st', _ | ⟨st'', before⟩⟩⟩ <;> simp [phraseStatements] at h
    · exact absurd h.2.1.1.symm hname
    · obtain ⟨rfl, rfl, ⟨rfl, rfl⟩, rfl⟩ := h
      decide

private theorem laidOut_phraseText :
    LaidOut [] (phraseStatements.flatMap Statement.tokens) phraseText.toList := by
  have hblank : IsGap [' '] := .blank (by decide) .nil
  have hcomment : IsGap ['%', '1', '\n'] := .comment (by decide : '\n' ∉ ['1']) .nil
  have hcomment' : IsGap ['%', '2', '\n'] := .comment (by decide : '\n' ∉ ['2']) .nil
  have hend : IsFinalGap ['%', '3'] := .opened .nil (by decide)
  exact .token rfl <| .token rfl <| .token rfl <| .gap hcomment (by decide) <|
    .token rfl <| .token rfl <| .token rfl <| .gap hblank (by decide) <|
    .token rfl <| .token rfl <| .token rfl <| .token rfl <| .token rfl <|
    .token rfl <| .gap hblank (by decide) <| .token rfl <| .token rfl <|
    .token rfl <| .gap hcomment' (by decide) <| .token rfl <| .token rfl <| .nil hend

theorem exists_hasContents_of_phraseText :
    Consistent (entries (fun _ => .ok "x") ".") phraseStatements ∧
      LaidOut [] (phraseStatements.flatMap Statement.tokens) phraseText.toList ∧
      ∃ g warnings, ofTextIn (fun _ => .ok "x") "." phraseText = .ok ⟨g, warnings⟩ ∧
        g.HasContents (contents phraseStatements) :=
  ⟨consistent_phraseStatements, laidOut_phraseText,
    exists_hasContents_of_laidOut consistent_phraseStatements laidOut_phraseText⟩

end Chunker.Grammar
