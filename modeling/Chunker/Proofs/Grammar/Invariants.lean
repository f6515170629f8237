import Chunker.Proofs.Grammar.Acceptance
import Chunker.Proofs.Text.Lines
import Mathlib.Data.List.Nodup

/-!
# What holds of every rule set that is read

The chart, the trees and the choice of a root rely on facts about the rule set that they never
check: a rule has patterns, one of which governs, the start symbol has a name, directives speak of
categories that rules make, and what a word offers with a form or a lemma is a terminal. All this
holds of every rule set that is read, from whatever text and whatever condition files.

What a draft keeps through all statements is shown once for the four ways in which a rule set
grows: a rule, an entry of a condition file, the start symbol and a directive.

## Main definitions

* `Grammar.Draft.IsKept` : the properties of rule sets that all ways of growth keep.
* `RuleSet.Filed` : what holds of the priorities and of the index of entries at every point.
* `RuleSet.Coherent` : what holds of a complete rule set.

## Main results

* `Grammar.Draft.IsKept.applyAll` : what all ways of growth keep is kept by statements.
* `RuleSet.Loaded.coherent` : a rule set that is read is coherent.
-/

namespace Chunker

/-! ### Growth by statements -/

namespace Grammar.Draft

/-- Holds of a property of rule sets that all ways of growth keep: a further rule, a further entry
of a condition file, the start symbol, and a directive that speaks of a category which is no
terminal. -/
structure IsKept (P : RuleSet → Prop) : Prop where
  addRule : ∀ g r, P g → P (g.addRule r)
  addListed : ∀ g condition reference, P g → P (g.addListed condition reference)
  setStart : ∀ (d : Draft) c, P d.rules → P (d.setStart c).rules
  declare : ∀ (d : Draft) (directive : Directive), ∀ c ∈ d.rules.nonterminals,
    P d.rules → P (d.declare directive c).rules

namespace IsKept

variable {d d' : Draft} {P : RuleSet → Prop}

private theorem foldl_addProduction (hP : IsKept P) (head : Category) (ps : List Production)
    (h : P d.rules) : P (ps.foldl (·.addProduction head) d).rules := by
  induction ps generalizing d with
  | nil => exact h
  | cons p ps ih =>
    refine ih (hP.addRule _ _ ?_)
    exact List.foldlRecOn _ _ h fun g hg l _ => hP.addListed g l.1 l.2 hg

private theorem declareAll (hP : IsKept P) {name : String} {cs : List Category} (h : P d.rules)
    (hd : Draft.declareAll name d cs = .ok d') : P d'.rules := by
  induction cs generalizing d with
  | nil => exact Except.ok.inj hd ▸ h
  | cons c cs ih =>
    obtain ⟨hc, directive, -, hd⟩ := declareAll_cons_eq_ok hd
    exact ih (hP.declare d directive c hc h) hd

/-- Every statement keeps the property. -/
theorem apply (hP : IsKept P) {st : Statement} (h : P d.rules) (hd : d.apply st = .ok d') :
    P d'.rules := by
  cases st with
  | rules head ps =>
    obtain rfl := Except.ok.inj hd
    exact hP.foldl_addProduction head ps h
  | directive name cs =>
    obtain ⟨-, c, -, -, rfl⟩ | ⟨-, hd⟩ := apply_directive_eq_ok hd
    · exact hP.setStart d c h
    · exact hP.declareAll h hd

/-- Statements keep the property. -/
theorem applyAll (hP : IsKept P) {sts : List Statement} (h : P d.rules)
    (hd : d.applyAll sts = .ok d') : P d'.rules := by
  induction sts generalizing d with
  | nil => exact Except.ok.inj hd ▸ h
  | cons st sts ih =>
    obtain ⟨d₁, hst, hd⟩ := applyAll_cons_eq_ok hd
    exact ih (hP.apply h hst) hd

end IsKept

end Grammar.Draft

open Grammar

namespace RuleSet

variable {g : RuleSet}

/-! ### Priorities and entries -/

/-- What holds of the priorities and of the index of entries at every point of the growth of a rule
set. -/
structure Filed (g : RuleSet) : Prop where
  nodup_priorities : (g.priorities.map Prod.fst).Nodup
  prior : g.priorities.map Prod.fst ⊆ g.nonterminals
  get_ne_nil : ∀ condition ∈ g.listed.keys, g.listed.get condition ≠ []

namespace Filed

theorem empty : Filed {} := by
  constructor <;> simp [Index.keys]

theorem addRule (h : g.Filed) (r : Rule) : (g.addRule r).Filed := by
  have hold : g.nonterminals ⊆ g.nonterminals.insert r.head := fun c hc =>
    List.mem_insert_iff.2 (.inr hc)
  rw [RuleSet.addRule]
  split <;> exact { h with prior := List.Subset.trans h.prior hold }

theorem addListed (h : g.Filed) (condition reference : String) :
    (g.addListed condition reference).Filed :=
  { h with
    get_ne_nil := fun condition' hmem => by
      simp only [RuleSet.addListed, Index.mem_keys_file, Index.get_file] at hmem ⊢
      split
      · exact List.append_ne_nil_of_right_ne_nil _ (List.cons_ne_nil _ _)
      · rename_i hne
        exact h.get_ne_nil condition' (hmem.resolve_right hne) }

theorem setStart {d : Draft} (h : d.rules.Filed) (c : Category) : (d.setStart c).rules.Filed :=
  { h with
    prior := List.Subset.trans h.prior fun _ hc => List.mem_insert_iff.2 (.inr hc) }

theorem declare {d : Draft} (h : d.rules.Filed) (directive : Directive) {c : Category}
    (hc : c ∈ d.rules.nonterminals) : (d.declare directive c).rules.Filed := by
  cases directive with
  | prior =>
    simp only [Draft.declare]
    split
    · exact { h with }
    · rename_i hnone
      rw [Option.not_isSome_iff_eq_none, List.lookup_eq_none_iff] at hnone
      refine { h with nodup_priorities := ?_, prior := ?_ }
      · rw [List.map_append, List.map_singleton]
        refine List.nodup_append.2 ⟨h.nodup_priorities, List.nodup_singleton c, ?_⟩
        rintro c' hc' _ hmem rfl
        obtain rfl := List.mem_singleton.1 hmem
        obtain ⟨q, hq, rfl⟩ := List.mem_map.1 hc'
        simpa using hnone q hq
      · rw [List.map_append, List.map_singleton]
        exact List.append_subset.2 ⟨h.prior, List.cons_subset.2 ⟨hc, List.nil_subset _⟩⟩
  | hidden => exact { h with }
  | flat => exact { h with }
  | neverTop => exact { h with }
  | onlyTop => exact { h with }

end Filed

theorem isKept_filed : Draft.IsKept Filed where
  addRule _ r h := h.addRule r
  addListed _ condition reference h := h.addListed condition reference
  setStart _ c h := h.setStart c
  declare _ directive _ hc h := h.declare directive hc

/-- The priorities and the index of a rule set that is read. -/
theorem Loaded.filed (h : g.Loaded) : g.Filed := by
  obtain ⟨sts, -, d, happly, rfl, -⟩ := h.exists_draft
  exact isKept_filed.applyAll .empty happly

/-! ### Complete rule sets -/

/-- What holds of a complete rule set. The last field is about condition files: what they list are
texts between brackets, not empty and without a blank at their end, and the brackets are those of
the references to the files, which are the conditions of patterns. -/
structure Coherent (g : RuleSet) : Prop where
  right_ne_nil : ∀ r ∈ g.rules, r.right ≠ []
  governor : ∀ r ∈ g.rules, ∃ i < r.right.length, r.governor = some i
  start_ne_empty : g.start ≠ ""
  mem_nonterminals_iff : ∀ c, c ∈ g.nonterminals ↔ c = g.start ∨ ∃ r ∈ g.rules, r.head = c
  directives : ∀ cs ∈ [g.hidden, g.flat, g.neverTop, g.onlyTop, g.priorities.map Prod.fst],
    cs ⊆ g.nonterminals
  nodup_priorities : (g.priorities.map Prod.fst).Nodup
  priorities_pos : ∀ n ∈ g.priorities.map Prod.snd, 0 < n
  nodup_numbers : (g.priorities.map Prod.snd).Nodup
  plain : ∀ c ∈ g.nonterminals, '(' ∉ c.toList ∧ '<' ∉ c.toList
  /-- A tag with a form or with a lemma is a terminal. -/
  isTerminal_seed : ∀ tag text,
    g.isTerminal (tag ++ "(" ++ text ++ ")") ∧ g.isTerminal (tag ++ "<" ++ text ++ ">")
  listed : ∀ condition ∈ g.listed.keys, ∃ (k : ConditionKind) (x : String),
    condition = entry k x ∧ x ≠ "" ∧ (∀ b ∈ x.toList.getLast?, Text.isBlank b = false) ∧
      ∀ reference ∈ g.listed.get condition, (∃ y, reference = entry k y) ∧
        ∃ r ∈ g.rules, ∃ p ∈ r.right, Category.condition p = reference

private theorem Filed.place {cs : List Category} (h : g.Filed)
    (hlookup : ∀ c, g.priorities.lookup c = (cs.idxOf? c).map (· + 1)) {q : Category × Nat}
    (hq : q ∈ g.priorities) : 0 < q.2 ∧ cs[q.2 - 1]? = some q.1 := by
  obtain ⟨before, after, hsplit⟩ := List.append_of_mem hq
  have hself : g.priorities.lookup q.1 = some q.2 := by
    refine List.lookup_eq_some_iff.2 ⟨before, after, hsplit, fun q' hq' => ?_⟩
    have hnodup := h.nodup_priorities
    rw [hsplit, List.map_append, List.map_cons, List.nodup_middle, List.nodup_cons] at hnodup
    exact bne_iff_ne.2 fun heq =>
      hnodup.1 (List.mem_append_left _ (heq ▸ List.mem_map_of_mem hq'))
  rw [hlookup, Option.map_eq_some_iff] at hself
  obtain ⟨i, hi, hnumber⟩ := hself
  obtain ⟨hlt, hget, -⟩ := List.idxOf?_eq_some_iff.1 hi
  obtain rfl : q.2 - 1 = i := by omega
  exact ⟨by omega, by rw [List.getElem?_eq_getElem hlt, hget]⟩

theorem condition_pattern {listing : Listing} {e : Element} (he : e.Valid listing) :
    Category.condition e.pattern = e.condition.text := by
  refine Category.condition_append he.1.not_opensCondition ?_
  have hvalid := he.2
  cases hcond : e.condition with
  | absent => exact Category.isEnding_empty
  | literal t =>
    rw [hcond] at hvalid
    obtain ⟨k, x, rfl, -⟩ := hvalid.exists_entry
    exact isEnding_entry k x
  | listed reference es =>
    rw [hcond] at hvalid
    obtain ⟨k, path, rfl, -⟩ := hvalid.1.exists_entry
    exact isEnding_entry k _

/-- A condition that is listed is a text of the file between the brackets of the reference, and the
reference is the condition of a pattern. -/
private theorem exists_entry_of_lists {source : Source} {dir text : String} {gr : Grammar}
    (h : ofTextIn source dir text = .ok gr) {condition reference : String}
    (hlists : gr.rules.lists condition reference) :
    ∃ (k : ConditionKind) (x : String), condition = entry k x ∧ x ≠ "" ∧
      (∀ b ∈ x.toList.getLast?, Text.isBlank b = false) ∧ (∃ y, reference = entry k y) ∧
        ∃ r ∈ gr.rules.rules, ∃ p ∈ r.right, Category.condition p = reference := by
  obtain ⟨e, he, es, hlisted, hes⟩ := (lists_iff_exists_element h).1 hlists
  have hvalid := elementsOf_valid he
  have hcondition := hvalid.2
  rw [hlisted] at hcondition
  obtain ⟨k, path, rfl, hquote, -⟩ := hcondition.1.exists_entry
  obtain ⟨file, -, hmem⟩ := mem_of_entries_eq_ok hquote hcondition.2
  obtain ⟨x, rfl, hne, line, -, hx⟩ := (hmem condition).1 hes
  refine ⟨k, x, rfl, hne, fun b hb => ?_, ⟨_, rfl⟩, ?_⟩
  · exact Text.isBlank_eq_false_of_mem_getLast?_trimEnd (hx ▸ hb)
  · obtain ⟨r, hr, hp⟩ := exists_rule_of_mem_elementsOf h he
    exact ⟨r, hr, e.pattern, hp, by rw [condition_pattern hvalid, hlisted]; rfl⟩

/-- **What holds of every rule set that is read.** -/
theorem Loaded.coherent (h : g.Loaded) : g.Coherent := by
  obtain ⟨source, dir, text, warnings, hload⟩ := h.exists_ofTextIn_eq
  have hcontents := hasContents_of_ofTextIn hload
  have hwf := h.wellFormed
  have hplain {c : Category} {b : Char} (hb : Category.opensCondition b) (hc : b ∈ c.toList) :
      g.isTerminal c := isTerminal_iff.2 (hwf.not_mem_nonterminals hb hc)
  constructor
  case right_ne_nil => exact fun r hr => (hwf.rule r hr).right_ne_nil
  case governor => exact fun r hr => (hwf.rule r hr).governor
  case start_ne_empty => exact (starts_of_ofTextIn hload).2
  case mem_nonterminals_iff =>
    intro c
    rw [hcontents.nonterminals, (starts_of_ofTextIn hload).1, List.mem_singleton,
      ← (hcontents.rules.map Rule.head).mem_iff, List.mem_map]
  case directives =>
    simp only [List.forall_mem_cons]
    exact ⟨hwf.hidden, hwf.flat, hwf.neverTop, hwf.onlyTop, h.filed.prior,
      fun _ hmem => absurd hmem List.not_mem_nil⟩
  case nodup_priorities => exact h.filed.nodup_priorities
  case priorities_pos =>
    rintro n hn
    obtain ⟨q, hq, rfl⟩ := List.mem_map.1 hn
    exact (h.filed.place hcontents.priorities hq).1
  case nodup_numbers =>
    refine List.Nodup.map_on ?_ (List.Nodup.of_map _ h.filed.nodup_priorities)
    intro q hq q' hq' heq
    obtain ⟨-, hplace⟩ := h.filed.place hcontents.priorities hq
    obtain ⟨-, hplace'⟩ := h.filed.place hcontents.priorities hq'
    rw [← heq, hplace] at hplace'
    exact Prod.ext (Option.some.inj hplace') heq
  case plain =>
    exact fun c hc => ⟨fun hb => hwf.not_mem_nonterminals rfl hb hc,
      fun hb => hwf.not_mem_nonterminals rfl hb hc⟩
  case isTerminal_seed =>
    exact fun tag x => ⟨hplain (b := '(') rfl (by simp), hplain (b := '<') rfl (by simp)⟩
  case listed =>
    intro condition hcondition
    obtain ⟨reference, hreference⟩ :=
      List.exists_mem_of_ne_nil _ (h.filed.get_ne_nil condition hcondition)
    obtain ⟨k, x, hx, hne, hend, -⟩ :=
      exists_entry_of_lists hload (decide_eq_true hreference)
    refine ⟨k, x, hx, hne, hend, fun reference' hreference' => ?_⟩
    obtain ⟨k', x', hx', -, -, hkind, hpattern⟩ :=
      exists_entry_of_lists hload (decide_eq_true hreference')
    obtain ⟨rfl, -⟩ := entry_inj.1 (hx.symm.trans hx')
    exact ⟨hkind, hpattern⟩

/-- A file with blanks at the end of its lines and an empty line, and priorities that are declared
twice. -/
theorem coherent_of_repeated_priorities :
    ∃ g : RuleSet, g.Loaded ∧ g.listed.keys = ["<be>", "<have>"] ∧
      g.priorities = [("np", 1), ("verb", 2), ("S", 4)] ∧ g.Coherent := by
  let source : Source := fun _ => .ok "be  \n\nhave\t\n"
  let text :=
    "verb ==> VM*<\"aux\">, +np | VB . np ==> +NN . @START S . @PRIOR np verb np . @PRIOR S ."
  have hknown : (Grammar.ofText source text).toOption.map
      (fun gr => (gr.rules.listed.keys, gr.rules.priorities)) =
        some (["<be>", "<have>"], [("np", 1), ("verb", 2), ("S", 4)]) := by decide +kernel
  obtain ⟨⟨g, warnings⟩, hload, hknown⟩ := exists_eq_ok_of_map_toOption hknown
  obtain ⟨hkeys, hpriorities⟩ := Prod.mk.inj hknown
  have hg : g.Loaded := .ofText hload
  exact ⟨g, hg, hkeys, hpriorities, hg.coherent⟩

end RuleSet

end Chunker
