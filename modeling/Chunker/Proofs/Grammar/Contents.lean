import Chunker.Proofs.Grammar.WellFormed

/-!
# What statements say

A list of statements says which rules there are, which conditions the files list, and of which
categories each directive speaks, all in the order of the statements. The rule set of a draft
answers every question from these lists: the rules under a first pattern are the rules with that
pattern in the order in which they were written, and the priority of a category is its place among
all categories for which a priority is declared, counted from 1.

## Main definitions

* `Grammar.Contents`, `Grammar.contents` : what a list of statements says.
* `Grammar.statementsOf` : the statements of a text.
* `RuleSet.HasContents` : the answers of a rule set in terms of what was said.

## Main results

* `Grammar.Draft.hasContents_applyAll` : a draft has the contents of the statements applied to it.
* `Grammar.hasContents_of_ofTextIn` : a rule set that is read has those of the statements of its
  text.
-/

namespace Chunker

/-! ### Filing -/

namespace Index

variable {κ α : Type} [DecidableEq κ]

omit [DecidableEq κ] in
/-- The keys of an index. -/
def keys (ix : Index κ α) : List κ :=
  ix.buckets.map Prod.fst

theorem perm_values_file (ix : Index κ α) (k : κ) (a : α) :
    (ix.file k a).values.Perm (a :: ix.values) := by
  obtain ⟨bs⟩ := ix
  simp only [values, file]
  induction bs with
  | nil => simp [fileIn]
  | cons b bs ih =>
    obtain ⟨k', as⟩ := b
    simp only [fileIn]
    split
    · rw [List.flatMap_cons, List.flatMap_cons, List.append_assoc]
      exact List.perm_middle
    · rw [List.flatMap_cons, List.flatMap_cons]
      exact (ih.append_left as).trans List.perm_middle

private theorem map_fst_fileIn (k : κ) (a : α) (bs : List (κ × List α)) :
    (fileIn k a bs).map Prod.fst =
      if k ∈ bs.map Prod.fst then bs.map Prod.fst else bs.map Prod.fst ++ [k] := by
  induction bs with
  | nil => simp [fileIn]
  | cons b bs ih => grind [fileIn]

theorem mem_keys_file {ix : Index κ α} {k k' : κ} {a : α} :
    k' ∈ (ix.file k a).keys ↔ k' ∈ ix.keys ∨ k' = k := by
  rw [keys, file, map_fst_fileIn]
  split
  · rename_i hk
    exact (or_iff_left_of_imp fun heq => heq ▸ hk).symm
  · rw [List.mem_append, List.mem_singleton]
    rfl

theorem nodup_keys_file {ix : Index κ α} (h : ix.keys.Nodup) (k : κ) (a : α) :
    (ix.file k a).keys.Nodup := by
  rw [keys, file, map_fst_fileIn]
  split
  · exact h
  · rename_i hk
    exact List.nodup_append.2 ⟨h, by simp, by grind⟩

theorem mem_get_foldl_file {ls : List (κ × α)} {ix : Index κ α} {k : κ} {a : α} :
    a ∈ (ls.foldl (fun ix l => ix.file l.1 l.2) ix).get k ↔ a ∈ ix.get k ∨ (k, a) ∈ ls := by
  induction ls generalizing ix with
  | nil => simp
  | cons l ls ih =>
    rw [List.foldl_cons, ih, get_file]
    grind

end Index

/-- The first character of the first pattern of a rule, if this pattern has a wildcard. -/
def Rule.wildStart? (r : Rule) : Option Char :=
  (r.right.head?.filter Category.isWild).bind (·.toList.head?)

/-! ### Contents -/

namespace Grammar

/-- The name of a directive. -/
def Directive.name : Directive → String
  | prior => "@PRIOR"
  | hidden => "@HIDDEN"
  | flat => "@FLAT"
  | neverTop => "@NOTOP"
  | onlyTop => "@ONLYTOP"

theorem Directive.ofName?_eq_some_iff {name : String} {directive : Directive} :
    ofName? name = some directive ↔ name = directive.name := by
  constructor
  · intro h
    unfold ofName? at h
    repeat' split at h
    all_goals cases h
    all_goals assumption
  · rintro rfl
    cases directive <;> rfl

/-- The productions of a statement, in order, each with its category. -/
def Statement.productions : Statement → List (Category × Production)
  | .rules head ps => ps.map (head, ·)
  | .directive _ _ => []

theorem valid_of_mem_productions {listing : Listing} {sts : List Statement}
    (hsts : ∀ st ∈ sts, st.Valid listing) {q : Category × Production}
    (hq : q ∈ sts.flatMap Statement.productions) :
    IsName q.1.toList ∧ Production.Valid listing q.2 := by
  obtain ⟨st, hst, hq⟩ := List.mem_flatMap.1 hq
  cases st with
  | rules head ps =>
    obtain ⟨p, hp, rfl⟩ := List.mem_map.1 hq
    exact ⟨(hsts _ hst).1, (hsts _ hst).2.2 p hp⟩
  | directive name cs => cases hq

/-- The categories of a statement, if it is the directive of a name. -/
def Statement.categories (name : String) : Statement → List Category
  | .rules _ _ => []
  | .directive name' cs => if name' = name then cs else []

/-- What a list of statements says: the rules and the conditions that files list, each with the
reference to the file, and the categories that each directive names, in order. -/
structure Contents where
  rules : List Rule := []
  listings : List (String × String) := []
  starts : List Category := []
  /-- The categories with a declared priority, in order, repeated ones included. -/
  prior : List Category := []
  hidden : List Category := []
  flat : List Category := []
  neverTop : List Category := []
  onlyTop : List Category := []

/-- What several statements say. -/
def contents (sts : List Statement) : Contents where
  rules := (sts.flatMap Statement.productions).map fun q => Production.rule q.1 q.2
  listings := (sts.flatMap Statement.productions).flatMap fun q => q.2.flatMap Element.listings
  starts := sts.flatMap (Statement.categories "@START")
  prior := sts.flatMap (Statement.categories "@PRIOR")
  hidden := sts.flatMap (Statement.categories "@HIDDEN")
  flat := sts.flatMap (Statement.categories "@FLAT")
  neverTop := sts.flatMap (Statement.categories "@NOTOP")
  onlyTop := sts.flatMap (Statement.categories "@ONLYTOP")

namespace Contents

/-- The contents with further productions of a category. -/
def addProductions (k : Contents) (head : Category) (ps : List Production) : Contents :=
  { k with
    rules := k.rules ++ ps.map (Production.rule head)
    listings := k.listings ++ ps.flatMap (·.flatMap Element.listings) }

/-- The contents after a directive has spoken of several categories. -/
def declare (k : Contents) (directive : Directive) (cs : List Category) : Contents :=
  match directive with
  | .prior => { k with prior := k.prior ++ cs }
  | .hidden => { k with hidden := k.hidden ++ cs }
  | .flat => { k with flat := k.flat ++ cs }
  | .neverTop => { k with neverTop := k.neverTop ++ cs }
  | .onlyTop => { k with onlyTop := k.onlyTop ++ cs }

end Contents

theorem contents_append_rules (sts : List Statement) (head : Category) (ps : List Production) :
    contents (sts ++ [.rules head ps]) = (contents sts).addProductions head ps := by
  simp [contents, Contents.addProductions, Statement.productions, Statement.categories,
    List.flatMap_map, Function.comp_def]

theorem contents_append_start (sts : List Statement) (cs : List Category) :
    contents (sts ++ [.directive "@START" cs]) =
      { contents sts with starts := (contents sts).starts ++ cs } := by
  simp [contents, Statement.productions, Statement.categories]

theorem contents_append_directive (sts : List Statement) (directive : Directive)
    (cs : List Category) :
    contents (sts ++ [.directive directive.name cs]) = (contents sts).declare directive cs := by
  cases directive <;>
    simp [contents, Statement.productions, Statement.categories, Contents.declare,
      Directive.name]

/-- A directive without a category says nothing. -/
theorem contents_append_empty (sts : List Statement) (name : String) :
    contents (sts ++ [.directive name []]) = contents sts := by
  simp [contents, Statement.productions, Statement.categories]

end Grammar

open Grammar

/-! ### Rule sets -/

/-- A rule set answers every question from the contents of statements. The start symbol is the last
one named, the rules under a first pattern and under a wildcard are in the order in which they were
written, and the priority of a category is the place of its first declaration, counted from 1. -/
structure RuleSet.HasContents (g : RuleSet) (k : Contents) : Prop where
  start : g.start = k.starts.getLast?.getD ""
  rules : g.rules.Perm k.rules
  rulesStarting : ∀ p, g.rulesStarting p = k.rules.filter (·.right.head? = some p)
  wildRules : ∀ x, g.wildRules x = k.rules.filter (·.wildStart? = some x)
  nonterminals : ∀ c, c ∈ g.nonterminals ↔ c ∈ k.starts ∨ c ∈ k.rules.map Rule.head
  priorities : ∀ c, g.priorities.lookup c = (k.prior.idxOf? c).map (· + 1)
  hidden : ∀ c, c ∈ g.hidden ↔ c ∈ k.hidden
  flat : ∀ c, c ∈ g.flat ↔ c ∈ k.flat
  neverTop : ∀ c, c ∈ g.neverTop ↔ c ∈ k.neverTop
  onlyTop : ∀ c, c ∈ g.onlyTop ↔ c ∈ k.onlyTop
  lists : ∀ condition reference, g.lists condition reference ↔ (condition, reference) ∈ k.listings

namespace RuleSet

/-! ### Growth -/

variable {g : RuleSet} {k : Contents}

private theorem foldl_addListed_eq (ls : List (String × String)) (g : RuleSet) :
    ls.foldl (fun g l => g.addListed l.1 l.2) g =
      { g with listed := ls.foldl (fun ix l => ix.file l.1 l.2) g.listed } := by
  induction ls generalizing g with
  | nil => rfl
  | cons l ls ih => exact ih _

private theorem nodup_keys_addRule (h : g.byFirst.keys.Nodup) (r : Rule) :
    (g.addRule r).byFirst.keys.Nodup := by
  unfold addRule
  split
  · exact h
  · exact Index.nodup_keys_file h _ r

/-- A further rule goes to the end of those with its first pattern. -/
private theorem rulesStarting_addRule {r : Rule} (hr : r.right ≠ []) (p : Category) :
    (g.addRule r).rulesStarting p =
      if r.right.head? = some p then g.rulesStarting p ++ [r] else g.rulesStarting p := by
  obtain ⟨q, qs, hq⟩ := List.exists_cons_of_ne_nil hr
  simp only [rulesStarting, addRule, hq, Index.get_file, List.head?_cons, Option.some.injEq,
    eq_comm]

private theorem wildRules_addRule {r : Rule} (hr : r.right ≠ []) (x : Char) :
    (g.addRule r).wildRules x =
      if r.wildStart? = some x then g.wildRules x ++ [r] else g.wildRules x := by
  obtain ⟨q, qs, hq⟩ := List.exists_cons_of_ne_nil hr
  simp only [wildRules, addRule, hq, Rule.wildStart?, List.head?_cons, Rule.isWild,
    Option.any_some, Option.filter_some]
  cases hwild : Category.isWild q <;> cases hc : q.toList <;>
    simp [Index.get_file, hc, eq_comm]

namespace HasContents

theorem empty : HasContents {} {} := by
  constructor <;>
    simp [RuleSet.rules, RuleSet.rulesStarting, RuleSet.wildRules, RuleSet.lists, Index.values,
      Index.get, Index.valuesIn]

theorem addRule (h : g.HasContents k) {r : Rule} (hr : r.right ≠ []) :
    (g.addRule r).HasContents { k with rules := k.rules ++ [r] } := by
  obtain ⟨q, qs, hq⟩ := List.exists_cons_of_ne_nil hr
  have hrest : ∀ c, c ∈ (g.addRule r).nonterminals ↔ c = r.head ∨ c ∈ g.nonterminals := fun c => by
    rw [WellFormed.nonterminals_addRule, List.mem_insert_iff]
  constructor
  case rules =>
    have hperm : (g.addRule r).rules.Perm (r :: g.rules) := by
      simp only [RuleSet.rules, RuleSet.addRule, hq]
      exact Index.perm_values_file _ _ _
    exact hperm.trans ((h.rules.cons r).trans (List.perm_append_singleton r k.rules).symm)
  case rulesStarting =>
    intro p
    rw [rulesStarting_addRule hr, h.rulesStarting, List.filter_append]
    split <;> simp_all
  case wildRules =>
    intro x
    rw [wildRules_addRule hr, h.wildRules, List.filter_append]
    split <;> simp_all
  case nonterminals =>
    intro c
    rw [hrest, h.nonterminals, List.map_append, List.mem_append, List.map_singleton,
      List.mem_singleton]
    tauto
  all_goals simp only [RuleSet.addRule, hq]
  case start => exact h.start
  case priorities => exact h.priorities
  case hidden => exact h.hidden
  case flat => exact h.flat
  case neverTop => exact h.neverTop
  case onlyTop => exact h.onlyTop
  case lists => exact h.lists

theorem addListed (h : g.HasContents k) (ls : List (String × String)) :
    (ls.foldl (fun g l => g.addListed l.1 l.2) g).HasContents
      { k with listings := k.listings ++ ls } := by
  rw [foldl_addListed_eq]
  exact
    { h with
      lists := fun condition reference => by
        have hold := h.lists condition reference
        simp only [RuleSet.lists, decide_eq_true_eq] at hold ⊢
        rw [Index.mem_get_foldl_file, hold, List.mem_append] }

end HasContents

end RuleSet

/-! ### Drafts -/

namespace Grammar.Draft

/-- A draft answers every question from the contents of the statements so far. -/
structure HasContents (d : Draft) (k : Contents) : Prop extends d.rules.HasContents k where
  starts : k.starts = [] ∨ k.starts = [d.rules.start] ∧ d.rules.start ≠ ""
  nextPriority : d.nextPriority = k.prior.length + 1
  nodup_keys : d.rules.byFirst.keys.Nodup

variable {d d' : Draft} {k : Contents}

private theorem rules_addProduction (d : Draft) (head : Category) (p : Production) :
    (d.addProduction head p).rules =
      ((p.flatMap Element.listings).foldl (fun g l => g.addListed l.1 l.2) d.rules).addRule
        (Production.rule head p) :=
  rfl

private theorem start_addProduction (d : Draft) (head : Category) (p : Production) :
    (d.addProduction head p).rules.start = d.rules.start := by
  rw [rules_addProduction, RuleSet.foldl_addListed_eq, RuleSet.addRule]
  split <;> rfl

namespace HasContents

theorem empty : HasContents {} {} :=
  ⟨.empty, .inl rfl, rfl, List.nodup_nil⟩

theorem addProduction (h : d.HasContents k) {p : Production} (hp : p ≠ []) (head : Category) :
    (d.addProduction head p).HasContents (k.addProductions head [p]) := by
  have hright : (Production.rule head p).right ≠ [] := fun he => hp (List.map_eq_nil_iff.1 he)
  have hrules := (h.toHasContents.addListed (p.flatMap Element.listings)).addRule hright
  refine ⟨?_, ?_, h.nextPriority, ?_⟩
  · rw [rules_addProduction]
    simpa [Contents.addProductions] using hrules
  · rw [start_addProduction]
    exact h.starts
  · rw [rules_addProduction, RuleSet.foldl_addListed_eq]
    refine RuleSet.nodup_keys_addRule ?_ _
    exact h.nodup_keys

theorem foldl_addProduction (h : d.HasContents k) {ps : List Production} (hps : ∀ p ∈ ps, p ≠ [])
    (head : Category) :
    (ps.foldl (·.addProduction head) d).HasContents (k.addProductions head ps) := by
  induction ps generalizing d k with
  | nil => simpa [Contents.addProductions] using h
  | cons p ps ih =>
    have hp := h.addProduction (hps p List.mem_cons_self) head
    have htail := ih hp fun q hq => hps q (List.mem_cons_of_mem p hq)
    simpa [Contents.addProductions] using htail

theorem setStart (h : d.HasContents k) (hstart : d.rules.start = "") {c : Category}
    (hc : c ≠ "") : (d.setStart c).HasContents { k with starts := k.starts ++ [c] } :=
  { h with
    start := by simp [Draft.setStart]
    starts := by
      have hnone := h.starts.resolve_right fun hs => hs.2 hstart
      exact .inr ⟨by rw [hnone]; rfl, hc⟩
    nonterminals := fun c' => by
      simp only [Draft.setStart, List.mem_insert_iff, h.nonterminals, List.mem_append,
        List.mem_singleton]
      tauto }

/-- The place of a category after one more declaration: its first place counts. -/
private theorem idxOf?_append_singleton (cs : List Category) (c c' : Category) :
    (cs ++ [c]).idxOf? c' = (cs.idxOf? c').or (if c' = c then some cs.length else none) := by
  rw [List.idxOf?, List.findIdx?_append, ← List.idxOf?]
  by_cases hc : c' = c
  · simp [hc]
  · simp [hc, Ne.symm hc]

theorem declare (h : d.HasContents k) (directive : Directive) (c : Category) :
    (d.declare directive c).HasContents (k.declare directive [c]) := by
  have hinsert {cs cs' : List Category} (hcs : ∀ c, c ∈ cs ↔ c ∈ cs') (c' : Category) :
      c' ∈ cs.insert c ↔ c' ∈ cs' ++ [c] := by
    rw [List.mem_insert_iff, List.mem_append, List.mem_singleton, hcs, or_comm]
  cases directive with
  | prior =>
    refine { h with priorities := fun c' => ?_, nextPriority := ?_ }
    · rw [Contents.declare, idxOf?_append_singleton, Option.map_or, ← h.priorities,
        Option.map_if, ← h.nextPriority]
      simp only [Draft.declare]
      split
      · rename_i hdeclared
        by_cases hc : c' = c
        · rw [hc, Option.or_of_isSome hdeclared]
        · rw [if_neg hc, Option.or_none]
      · rw [List.lookup_append]
        by_cases hc : c' = c
        · simp [hc]
        · simp [List.lookup_cons, beq_eq_false_iff_ne.2 hc, hc]
    · simp [Draft.declare, Contents.declare, h.nextPriority]
  | hidden => exact { h with hidden := hinsert h.hidden }
  | flat => exact { h with flat := hinsert h.flat }
  | neverTop => exact { h with neverTop := hinsert h.neverTop }
  | onlyTop => exact { h with onlyTop := hinsert h.onlyTop }

theorem declareAll (h : d.HasContents k) {directive : Directive} {cs : List Category}
    (hd : Draft.declareAll directive.name d cs = .ok d') :
    d'.HasContents (k.declare directive cs) := by
  induction cs generalizing d k with
  | nil =>
    obtain rfl := Except.ok.inj hd
    cases directive <;> simpa [Contents.declare] using h
  | cons c cs ih =>
    obtain ⟨-, directive', hdirective, hd⟩ := declareAll_cons_eq_ok hd
    obtain rfl : directive = directive' :=
      Option.some.inj ((Directive.ofName?_eq_some_iff.2 rfl).symm.trans hdirective)
    have htail := ih (h.declare directive c) hd
    cases directive <;> simpa [Contents.declare] using htail

end HasContents

/-- Every statement adds what it says to the contents. -/
theorem hasContents_apply {st : Statement} {sts : List Statement} (hst : st.WellFormed)
    (h : d.HasContents (contents sts)) (hd : d.apply st = .ok d') :
    d'.HasContents (contents (sts ++ [st])) := by
  cases st with
  | rules head ps =>
    obtain rfl := Except.ok.inj hd
    rw [contents_append_rules]
    exact h.foldl_addProduction (fun p hp => (hst.2 p hp).1) head
  | directive name cs =>
    obtain ⟨rfl, c, rfl, hstart, rfl⟩ | ⟨-, hd⟩ := apply_directive_eq_ok hd
    · rw [contents_append_start]
      exact h.setStart hstart (hst c List.mem_cons_self).ne_empty
    · cases cs with
      | nil =>
        obtain rfl := Except.ok.inj hd
        rwa [contents_append_empty]
      | cons c cs =>
        obtain ⟨-, directive, hdirective, -⟩ := declareAll_cons_eq_ok hd
        obtain rfl := Directive.ofName?_eq_some_iff.1 hdirective
        rw [contents_append_directive]
        exact h.declareAll hd

/-- A draft has the contents of the statements that were applied to it. -/
theorem hasContents_applyAll (sts : List Statement) {sts' : List Statement}
    (hsts : ∀ st ∈ sts', st.WellFormed) (h : d.HasContents (contents sts))
    (hd : d.applyAll sts' = .ok d') : d'.HasContents (contents (sts ++ sts')) := by
  induction sts' generalizing d sts with
  | nil => simpa [Except.ok.inj hd] using h
  | cons st sts' ih =>
    obtain ⟨d₁, hst, hd⟩ := applyAll_cons_eq_ok hd
    have htail := ih (sts ++ [st]) (fun x hx => hsts x (List.mem_cons_of_mem st hx))
      (hasContents_apply (hsts st List.mem_cons_self) h hst) hd
    simpa using htail

end Grammar.Draft

/-! ### Texts -/

namespace Grammar

/-- The statements of a text whose references are looked up from a directory. -/
def statementsOf (source : Source) (dir text : String) : List Statement :=
  (readStatements (entries source dir) text.toList).statements

theorem statementsOf_valid (source : Source) (dir text : String) :
    ∀ st ∈ statementsOf source dir text, st.Valid (entries source dir) :=
  readStatements_valid (entries source dir) text.toList

variable {source : Source} {dir text : String} {gr : Grammar}

/-- A text that is read leaves a draft with the contents of its statements, which has a start
symbol. -/
theorem exists_hasContents_of_ofTextIn (h : ofTextIn source dir text = .ok gr) :
    ∃ d : Draft, d.HasContents (contents (statementsOf source dir text)) ∧ d.rules = gr.rules ∧
      d.rules.start ≠ "" := by
  obtain ⟨d, happly, hrules, hstart⟩ := exists_draft_of_ofTextIn h
  have hwf := readStatements_wellFormed (entries source dir) text.toList
  exact ⟨d, Draft.hasContents_applyAll [] hwf Draft.HasContents.empty happly, hrules, hstart⟩

theorem starts_of_ofTextIn (h : ofTextIn source dir text = .ok gr) :
    (contents (statementsOf source dir text)).starts = [gr.rules.start] ∧ gr.rules.start ≠ "" := by
  obtain ⟨d, hcontents, hrules, hstart⟩ := exists_hasContents_of_ofTextIn h
  rw [← hrules]
  refine ⟨(hcontents.starts.resolve_left fun hnone => hstart ?_).1, hstart⟩
  rw [hcontents.start, hnone]
  rfl

/-- The rule set of a text that is read has the contents of its statements. -/
theorem hasContents_of_ofTextIn (h : ofTextIn source dir text = .ok gr) :
    gr.rules.HasContents (contents (statementsOf source dir text)) := by
  obtain ⟨d, hcontents, hrules, -⟩ := exists_hasContents_of_ofTextIn h
  exact hrules ▸ hcontents.toHasContents

end Grammar

end Chunker
