import Chunker.Proofs.Grammar.Syntax
import Mathlib.Data.List.Basic

/-!
# Rule sets that are read

A rule set that is read from a text is well formed: its two indices file every rule under its
first pattern and under the first character of a first pattern with a wildcard, every pattern
begins with a letter, every rule has a governor, and the directives speak of categories that
rules make, or of the start symbol. The facts are kept by every statement of the text.

## Main definitions

* `RuleSet.Loaded` : the rule sets that are read from a text or from a file.
* `RuleSet.WellFormed` : what holds of them.

## Main results

* `RuleSet.Loaded.wellFormed` : a rule set that is read is well formed.
* `RuleSet.Loaded.start_mem` : its start symbol is one of its nonterminals.
-/

namespace Chunker

/-! ### Values of an index -/

namespace Index

variable {κ α : Type} [DecidableEq κ] {ix : Index κ α}

theorem mem_values_file {k : κ} {a b : α} :
    b ∈ (ix.file k a).values ↔ b = a ∨ b ∈ ix.values := by
  obtain ⟨bs⟩ := ix
  simp only [values, file]
  induction bs with
  | nil => simp [fileIn]
  | cons b bs ih => grind [fileIn]

end Index

/-! ### Rule sets -/

/-- Holds of a rule set that is read from a text or from a file. -/
inductive RuleSet.Loaded (g : RuleSet) : Prop where
  | ofText {source : Source} {text : String} {warnings : List Warning}
      (h : Grammar.ofText source text = .ok ⟨g, warnings⟩) : Loaded g
  | ofFile {source : Source} {path : String} {warnings : List Warning}
      (h : Grammar.ofFile source path = .ok ⟨g, warnings⟩) : Loaded g

/-- What holds of a rule: it has patterns, each of which begins with a letter, one of them
governs, and its category is a name. -/
structure Rule.WellFormed (r : Rule) : Prop where
  right_ne_nil : r.right ≠ []
  pattern : ∀ q ∈ r.right, ∃ x, q.toList.head? = some x ∧ Grammar.beginsName x
  governor : ∃ i < r.right.length, r.governor = some i
  head : Grammar.IsName r.head.toList

namespace RuleSet

/-- What holds of a rule set at every point of its growth. The rules are well formed and are filed
by their first pattern, and if it has a wildcard, also by its first character; what directives
speak of is no terminal. -/
structure WellFormed (g : RuleSet) : Prop where
  rule : ∀ r ∈ g.rules, r.WellFormed
  mem_byFirst : ∀ {p r}, r ∈ g.byFirst.get p ↔ r ∈ g.rules ∧ r.right.head? = some p
  mem_wild : ∀ {x r}, r ∈ g.wild.get x ↔
    r ∈ g.rules ∧ ∃ q, r.right.head? = some q ∧ Category.isWild q ∧ q.toList.head? = some x
  head_mem : ∀ r ∈ g.rules, r.head ∈ g.nonterminals
  isName : ∀ c ∈ g.nonterminals, Grammar.IsName c.toList
  start : g.start = "" ∨ g.start ∈ g.nonterminals
  hidden : g.hidden ⊆ g.nonterminals
  flat : g.flat ⊆ g.nonterminals
  neverTop : g.neverTop ⊆ g.nonterminals
  onlyTop : g.onlyTop ⊆ g.nonterminals

theorem isTerminal_iff {g : RuleSet} {c : Category} :
    g.isTerminal c = true ↔ c ∉ g.nonterminals := by
  simp [isTerminal]

theorem isTerminal_eq_false_iff {g : RuleSet} {c : Category} :
    g.isTerminal c = false ↔ c ∈ g.nonterminals := by
  simp [isTerminal]

namespace WellFormed

variable {g : RuleSet}

/-- A category with a condition is a terminal: the brackets of conditions occur in no name. -/
theorem not_mem_nonterminals (h : g.WellFormed) {c : Category} {b : Char}
    (hb : Category.opensCondition b) (hc : b ∈ c.toList) : c ∉ g.nonterminals := fun hmem => by
  rw [(h.isName c hmem).not_opensCondition b hc] at hb
  cases hb

theorem empty : WellFormed {} := by
  constructor <;> simp [rules, Index.values, Index.get, Index.valuesIn]

theorem mem_rules_addRule {r r' : Rule} (hr : r.right ≠ []) :
    r' ∈ (g.addRule r).rules ↔ r' = r ∨ r' ∈ g.rules := by
  obtain ⟨head, right, governor⟩ := r
  cases right with
  | nil => exact absurd rfl hr
  | cons p ps => exact Index.mem_values_file

theorem nonterminals_addRule (r : Rule) :
    (g.addRule r).nonterminals = g.nonterminals.insert r.head := by
  rw [addRule]
  split <;> rfl

private theorem mem_byFirst_addRule (h : g.WellFormed) {r : Rule} (hr : r.right ≠ [])
    {p : Category} {r' : Rule} :
    r' ∈ (g.addRule r).byFirst.get p ↔
      r' ∈ (g.addRule r).rules ∧ r'.right.head? = some p := by
  rw [mem_rules_addRule hr]
  obtain ⟨head, right, governor⟩ := r
  cases right with
  | nil => exact absurd rfl hr
  | cons q qs =>
    simp only [addRule, Index.get_file]
    split
    · rename_i hp
      subst hp
      rw [List.mem_append, h.mem_byFirst, List.mem_singleton]
      constructor
      · rintro (⟨hm, hq⟩ | rfl)
        · exact ⟨.inr hm, hq⟩
        · exact ⟨.inl rfl, rfl⟩
      · rintro ⟨rfl | hm, hq⟩
        · exact .inr rfl
        · exact .inl ⟨hm, hq⟩
    · rename_i hp
      rw [h.mem_byFirst]
      constructor
      · rintro ⟨hm, hq⟩
        exact ⟨.inr hm, hq⟩
      · rintro ⟨rfl | hm, hq⟩
        · exact absurd (Option.some.inj hq).symm hp
        · exact ⟨hm, hq⟩

private theorem wild_addRule {r : Rule} {q : Category} {qs : List Category} {x : Char}
    (hr : r.right = q :: qs) (hx : q.toList.head? = some x) :
    (g.addRule r).wild = if Category.isWild q then g.wild.file x r else g.wild := by
  obtain ⟨y, ys, hy⟩ : ∃ y ys, q.toList = y :: ys :=
    List.exists_cons_of_ne_nil fun h => by simp [h] at hx
  rw [hy, List.head?_cons, Option.some.injEq] at hx
  simp only [addRule, hr, hy, Rule.isWild, List.head?_cons, Option.any_some, hx]

private theorem mem_wild_addRule (h : g.WellFormed) {r : Rule} (hr : r.WellFormed)
    {x : Char} {r' : Rule} :
    r' ∈ (g.addRule r).wild.get x ↔
      r' ∈ (g.addRule r).rules ∧
        ∃ q, r'.right.head? = some q ∧ Category.isWild q ∧ q.toList.head? = some x := by
  obtain ⟨q, qs, hq⟩ := List.exists_cons_of_ne_nil hr.right_ne_nil
  obtain ⟨y, hy, -⟩ := hr.pattern q (hq ▸ List.mem_cons_self)
  have hself : r.right.head? = some q := by rw [hq, List.head?_cons]
  rw [mem_rules_addRule hr.right_ne_nil, wild_addRule hq hy]
  -- The new rule counts only if its first pattern is wild and begins with the character.
  have hnew : (∃ p, r.right.head? = some p ∧ Category.isWild p ∧ p.toList.head? = some x) ↔
      Category.isWild q ∧ y = x := by
    rw [hself]
    constructor
    · rintro ⟨p, hp, hw, hx⟩
      obtain rfl := Option.some.inj hp
      exact ⟨hw, Option.some.inj (hy.symm.trans hx)⟩
    · rintro ⟨hw, rfl⟩
      exact ⟨q, rfl, hw, hy⟩
  split
  · rename_i hw
    rw [Index.get_file]
    split
    · rename_i hx
      subst hx
      rw [List.mem_append, h.mem_wild, List.mem_singleton]
      constructor
      · rintro (⟨hm, hp⟩ | rfl)
        · exact ⟨.inr hm, hp⟩
        · exact ⟨.inl rfl, hnew.2 ⟨hw, rfl⟩⟩
      · rintro ⟨rfl | hm, hp⟩
        · exact .inr rfl
        · exact .inl ⟨hm, hp⟩
    · rename_i hx
      rw [h.mem_wild]
      constructor
      · rintro ⟨hm, hp⟩
        exact ⟨.inr hm, hp⟩
      · rintro ⟨rfl | hm, hp⟩
        · exact absurd (hnew.1 hp).2.symm hx
        · exact ⟨hm, hp⟩
  · rename_i hw
    rw [h.mem_wild]
    constructor
    · rintro ⟨hm, hp⟩
      exact ⟨.inr hm, hp⟩
    · rintro ⟨rfl | hm, hp⟩
      · exact absurd (hnew.1 hp).1 hw
      · exact ⟨hm, hp⟩

theorem addRule (h : g.WellFormed) {r : Rule} (hr : r.WellFormed) : (g.addRule r).WellFormed := by
  have hnt : ∀ c, c ∈ (g.addRule r).nonterminals ↔ c = r.head ∨ c ∈ g.nonterminals := fun c => by
    rw [nonterminals_addRule, List.mem_insert_iff]
  have hold : g.nonterminals ⊆ (g.addRule r).nonterminals := fun c hc => (hnt c).2 (.inr hc)
  have hrest : (g.addRule r).start = g.start ∧ (g.addRule r).hidden = g.hidden ∧
      (g.addRule r).flat = g.flat ∧ (g.addRule r).neverTop = g.neverTop ∧
      (g.addRule r).onlyTop = g.onlyTop := by
    rw [RuleSet.addRule]
    split <;> exact ⟨rfl, rfl, rfl, rfl, rfl⟩
  obtain ⟨hstart, hhidden, hflat, hneverTop, honlyTop⟩ := hrest
  constructor
  case rule =>
    intro r' hr'
    rcases (mem_rules_addRule hr.right_ne_nil).1 hr' with rfl | hm
    · exact hr
    · exact h.rule r' hm
  case mem_byFirst => exact mem_byFirst_addRule h hr.right_ne_nil
  case mem_wild => exact mem_wild_addRule h hr
  case head_mem =>
    intro r' hr'
    rcases (mem_rules_addRule hr.right_ne_nil).1 hr' with rfl | hm
    · exact (hnt _).2 (.inl rfl)
    · exact hold (h.head_mem r' hm)
  case isName =>
    intro c hc
    rcases (hnt c).1 hc with rfl | hc
    · exact hr.head
    · exact h.isName c hc
  case start => exact hstart ▸ h.start.imp_right fun hs => hold hs
  case hidden => exact hhidden ▸ List.Subset.trans h.hidden hold
  case flat => exact hflat ▸ List.Subset.trans h.flat hold
  case neverTop => exact hneverTop ▸ List.Subset.trans h.neverTop hold
  case onlyTop => exact honlyTop ▸ List.Subset.trans h.onlyTop hold

theorem addListed (h : g.WellFormed) (condition reference : String) :
    (g.addListed condition reference).WellFormed :=
  { h with }

theorem setStart (h : g.WellFormed) {c : Category} (hc : Grammar.IsName c.toList) :
    WellFormed { g with start := c, nonterminals := g.nonterminals.insert c } := by
  have hold : g.nonterminals ⊆ g.nonterminals.insert c := fun x hx =>
    List.mem_insert_iff.2 (.inr hx)
  exact
    { h with
      head_mem := fun r hr => hold (h.head_mem r hr)
      isName := fun x hx => (List.mem_insert_iff.1 hx).elim (fun he => he ▸ hc) (h.isName x)
      start := .inr (List.mem_insert_iff.2 (.inl rfl))
      hidden := List.Subset.trans h.hidden hold
      flat := List.Subset.trans h.flat hold
      neverTop := List.Subset.trans h.neverTop hold
      onlyTop := List.Subset.trans h.onlyTop hold }

end WellFormed

end RuleSet

/-! ### Drafts -/

namespace Grammar

theorem Production.governor_lt {p : Production} (hp : p ≠ []) : governor p < p.length := by
  rw [governor]
  cases hfind : p.findIdx? Element.governs with
  | none => exact List.length_pos_iff.2 hp
  | some i => exact (List.findIdx?_eq_some_iff_findIdx_eq.1 hfind).1

theorem Production.WellFormed.rule {head : Category} {p : Production}
    (hhead : IsName head.toList) (hp : Production.WellFormed p) :
    (Production.rule head p).WellFormed where
  right_ne_nil h := hp.1 (List.map_eq_nil_iff.1 h)
  pattern q hq := by
    obtain ⟨e, he, rfl⟩ := List.mem_map.1 hq
    obtain ⟨x, hx, hletter⟩ := (hp.2 e he).head?
    obtain ⟨xs, hxs⟩ : ∃ xs, e.category.toList = x :: xs := List.head?_eq_some_iff.1 hx
    exact ⟨x, by rw [Element.pattern, String.toList_append, hxs]; rfl, hletter⟩
  governor := by
    refine ⟨Production.governor p, ?_, rfl⟩
    rw [Production.rule, List.length_map]
    exact Production.governor_lt hp.1
  head := hhead

namespace Draft

variable {d d' : Draft}

section Steps

variable {name : String} {c : Category} {cs : List Category} {st : Statement}
  {sts : List Statement}

/-- A directive is followed one category after the other, none of which is a terminal. -/
theorem declareAll_cons_eq_ok (h : declareAll name d (c :: cs) = .ok d') :
    c ∈ d.rules.nonterminals ∧ ∃ directive, Directive.ofName? name = some directive ∧
      declareAll name (d.declare directive c) cs = .ok d' := by
  rw [declareAll] at h
  split at h
  · cases h
  · rename_i hc
    rw [Bool.not_eq_true, RuleSet.isTerminal_eq_false_iff] at hc
    split at h
    · cases h
    · rename_i directive hdirective
      exact ⟨hc, directive, hdirective, h⟩

/-- The start directive names the start symbol once; any other directive is followed. -/
theorem apply_directive_eq_ok (h : d.apply (.directive name cs) = .ok d') :
    (name = "@START" ∧ ∃ c, cs = [c] ∧ d.rules.start = "" ∧ d' = d.setStart c) ∨
      name ≠ "@START" ∧ declareAll name d cs = .ok d' := by
  by_cases hname : name = "@START"
  · simp only [apply, if_pos hname] at h
    split at h
    · split at h
      · rename_i hstart
        exact .inl ⟨hname, _, rfl, hstart, (Except.ok.inj h).symm⟩
      · cases h
    · cases h
  · simp only [apply, if_neg hname] at h
    exact .inr ⟨hname, h⟩

theorem applyAll_cons_eq_ok (h : d.applyAll (st :: sts) = .ok d') :
    ∃ d₁, d.apply st = .ok d₁ ∧ d₁.applyAll sts = .ok d' := by
  rw [applyAll] at h
  split at h
  · cases h
  · rename_i d₁ hst
    exact ⟨d₁, hst, h⟩

end Steps

theorem wellFormed_addProduction (h : d.rules.WellFormed) {head : Category} {p : Production}
    (hhead : IsName head.toList) (hp : Production.WellFormed p) :
    (d.addProduction head p).rules.WellFormed := by
  refine RuleSet.WellFormed.addRule ?_ (hp.rule hhead)
  generalize p.flatMap Element.listings = listings
  obtain ⟨g, _, _⟩ := d
  change g.WellFormed at h
  change (listings.foldl (fun g (x : String × String) => g.addListed x.1 x.2) g).WellFormed
  induction listings generalizing g with
  | nil => exact h
  | cons x xs ih => exact ih (g.addListed x.1 x.2) (h.addListed x.1 x.2)

theorem wellFormed_foldl_addProduction {head : Category} (hhead : IsName head.toList)
    {ps : List Production} (hps : ∀ p ∈ ps, Production.WellFormed p) (h : d.rules.WellFormed) :
    (ps.foldl (·.addProduction head) d).rules.WellFormed := by
  induction ps generalizing d with
  | nil => exact h
  | cons p ps ih =>
    have hp := hps p List.mem_cons_self
    exact ih (fun q hq => hps q (List.mem_cons_of_mem p hq)) (wellFormed_addProduction h hhead hp)

private theorem insert_subset {c : Category} {cs ns : List Category} (hc : c ∈ ns)
    (h : cs ⊆ ns) : cs.insert c ⊆ ns := fun _ hx =>
  (List.mem_insert_iff.1 hx).elim (fun he => he ▸ hc) (h ·)

theorem wellFormed_declare (h : d.rules.WellFormed) (directive : Directive) {c : Category}
    (hc : c ∈ d.rules.nonterminals) : (d.declare directive c).rules.WellFormed := by
  cases directive with
  | prior => exact { h with }
  | hidden => exact { h with hidden := insert_subset hc h.hidden }
  | flat => exact { h with flat := insert_subset hc h.flat }
  | neverTop => exact { h with neverTop := insert_subset hc h.neverTop }
  | onlyTop => exact { h with onlyTop := insert_subset hc h.onlyTop }

theorem wellFormed_declareAll {name : String} {cs : List Category} (h : d.rules.WellFormed)
    (hd : declareAll name d cs = .ok d') : d'.rules.WellFormed := by
  induction cs generalizing d with
  | nil => exact Except.ok.inj hd ▸ h
  | cons c cs ih =>
    obtain ⟨hc, directive, -, hd⟩ := declareAll_cons_eq_ok hd
    exact ih (wellFormed_declare h directive hc) hd

/-- Every statement of the right shape keeps the rule set well formed. -/
theorem wellFormed_apply {st : Statement} (hst : st.WellFormed) (h : d.rules.WellFormed)
    (hd : d.apply st = .ok d') : d'.rules.WellFormed := by
  cases st with
  | rules head ps =>
    obtain rfl := Except.ok.inj hd
    exact wellFormed_foldl_addProduction hst.1 hst.2 h
  | directive name cs =>
    obtain ⟨-, c, rfl, -, rfl⟩ | ⟨-, hd⟩ := apply_directive_eq_ok hd
    · exact h.setStart (hst c List.mem_cons_self)
    · exact wellFormed_declareAll h hd

theorem wellFormed_applyAll {sts : List Statement} (hsts : ∀ st ∈ sts, st.WellFormed)
    (h : d.rules.WellFormed) (hd : d.applyAll sts = .ok d') : d'.rules.WellFormed := by
  induction sts generalizing d with
  | nil => exact Except.ok.inj hd ▸ h
  | cons st sts ih =>
    obtain ⟨d₁, hst, hd⟩ := applyAll_cons_eq_ok hd
    exact ih (fun st' h' => hsts st' (List.mem_cons_of_mem st h'))
      (wellFormed_apply (hsts st List.mem_cons_self) h hst) hd

end Draft

/-- A text that is read is a sequence of statements which say nothing wrong, one of them naming
the start symbol. -/
theorem exists_draft_of_ofTextIn {source : Source} {dir text : String} {gr : Grammar}
    (h : ofTextIn source dir text = .ok gr) :
    ∃ d : Draft,
      Draft.applyAll {} (readStatements (entries source dir) text.toList).statements = .ok d ∧
        d.rules = gr.rules ∧ d.rules.start ≠ "" := by
  simp only [ofTextIn] at h
  split at h
  · cases h
  · cases h
  · rename_i d hd _
    split at h
    · cases h
    · rename_i rules warnings hfinish
      rw [Draft.finish] at hfinish
      split at hfinish
      · cases hfinish
      · rename_i hstart
        obtain ⟨rfl, -⟩ := Prod.mk.inj (Except.ok.inj hfinish)
        obtain rfl := Except.ok.inj h
        exact ⟨d, hd, rfl, hstart⟩

theorem wellFormed_of_ofTextIn {source : Source} {dir text : String} {gr : Grammar}
    (h : ofTextIn source dir text = .ok gr) : gr.rules.WellFormed := by
  obtain ⟨d, hd, hrules, -⟩ := exists_draft_of_ofTextIn h
  rw [← hrules]
  exact Draft.wellFormed_applyAll (readStatements_wellFormed _ _) RuleSet.WellFormed.empty hd

end Grammar

/-! ### Loaded rule sets -/

namespace RuleSet.Loaded

variable {g : RuleSet}

theorem exists_ofTextIn_eq (h : g.Loaded) :
    ∃ source dir text warnings, Grammar.ofTextIn source dir text = .ok ⟨g, warnings⟩ := by
  rcases h with h | h
  · exact ⟨_, _, _, _, h⟩
  · rw [Grammar.ofFile] at h
    split at h
    · cases h
    · exact ⟨_, _, _, _, h⟩

theorem exists_draft (h : g.Loaded) :
    ∃ sts : List Grammar.Statement, (∀ st ∈ sts, st.WellFormed) ∧
      ∃ d : Grammar.Draft, Grammar.Draft.applyAll {} sts = .ok d ∧ d.rules = g ∧ g.start ≠ "" := by
  obtain ⟨source, dir, text, warnings, hin⟩ := h.exists_ofTextIn_eq
  obtain ⟨d, hd, hrules, hstart⟩ := Grammar.exists_draft_of_ofTextIn hin
  obtain rfl : d.rules = g := hrules
  exact ⟨_, Grammar.readStatements_wellFormed _ _, d, hd, rfl, hstart⟩

/-- A rule set that is read is well formed. -/
theorem wellFormed (h : g.Loaded) : g.WellFormed := by
  obtain ⟨sts, hsts, d, hd, rfl, -⟩ := h.exists_draft
  exact Grammar.Draft.wellFormed_applyAll hsts RuleSet.WellFormed.empty hd

/-- The start symbol of a rule set that is read is one of its nonterminals. -/
theorem start_mem (h : g.Loaded) : g.start ∈ g.nonterminals := by
  obtain ⟨_, -, _, -, -, hstart⟩ := h.exists_draft
  exact h.wellFormed.start.resolve_left hstart

theorem ne_start (h : g.Loaded) {x : Category} (hx : x ∉ g.nonterminals) : x ≠ g.start :=
  (ne_of_mem_of_not_mem h.start_mem hx).symm

theorem eq_start_or_mem_iff (h : g.Loaded) {x : Category} :
    x = g.start ∨ x ∈ g.nonterminals ↔ x ∈ g.nonterminals :=
  or_iff_right_of_imp fun hx => hx ▸ h.start_mem

end RuleSet.Loaded

/-! ### Rule sets of texts without condition files -/

theorem exists_eq_ok_of_map_toOption {ε α β : Type} {r : Except ε α} {f : α → β} {b : β}
    (h : r.toOption.map f = some b) : ∃ a, r = .ok a ∧ f a = b := by
  cases r with
  | error err => cases h
  | ok a => exact ⟨a, rfl, Option.some.inj h⟩

/-- A source without any file. -/
def Source.empty : Source :=
  fun _ => .error .notFound

/-- The rule set of a text that refers to no file, without rules if the text is no grammar. -/
def RuleSet.ofText (text : String) : RuleSet :=
  match Grammar.ofText Source.empty text with
  | .ok gr => gr.rules
  | .error _ => {}

theorem RuleSet.exists_ofText_eq {text : String} (h : (Grammar.ofText Source.empty text).isOk) :
    ∃ warnings, Grammar.ofText Source.empty text = .ok ⟨RuleSet.ofText text, warnings⟩ := by
  rw [RuleSet.ofText]
  split
  · rename_i gr hgr
    exact ⟨gr.warnings, hgr⟩
  · rename_i e he
    rw [he] at h
    cases h

theorem RuleSet.loaded_ofText {text : String} (h : (Grammar.ofText Source.empty text).isOk) :
    (RuleSet.ofText text).Loaded :=
  (RuleSet.exists_ofText_eq h).elim fun _ hload => .ofText hload

end Chunker
