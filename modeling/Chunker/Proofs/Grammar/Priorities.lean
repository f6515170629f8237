import Chunker.Chart.Preference
import Chunker.Proofs.Grammar.Validity

/-!
# Declared priorities

The priority number of a category is the place of its first mention among all mentions in priority
directives, counted from 1; a mention that repeats an earlier one has a place as well. So an earlier
first mention means a lower number. A category that is never mentioned has a fixed number. A
mentioned category goes before it only if its first mention is among as many mentions as there are
numbers below the fixed one; behind these places, the category that is not mentioned goes first.

## Main definitions

* `Grammar.mentions` : the categories of the priority directives of a text.

## Main results

* `RuleSet.prefers_iff_of_priority` : the preference among categories that rules make.
* `Grammar.priority_of_ofTextIn` : the priority numbers of a rule set that is read.
* `Grammar.exists_priority_of_place` : a first mention in any place.
* `Grammar.exists_prefers_of_not_mentioned` : a category that is not mentioned goes first.
-/

namespace Chunker

namespace RuleSet

variable {g : RuleSet} {c : Category}

/-! ### Numbers -/

theorem HasContents.priority_of_mem {k : Grammar.Contents} (h : g.HasContents k)
    (hc : c ∈ k.prior) : g.priority c = k.prior.idxOf c + 1 := by
  have hplace : k.prior.idxOf? c = some (k.prior.idxOf c) := by
    cases hfind : k.prior.idxOf? c with
    | none => exact absurd hc (List.idxOf?_eq_none_iff.1 hfind)
    | some i => rw [List.idxOf_eq_getD_idxOf?, hfind, Option.getD_some]
  rw [priority, h.priorities, hplace, Option.map_some, Option.getD_some]

theorem HasContents.priority_of_not_mem {k : Grammar.Contents} (h : g.HasContents k)
    (hc : c ∉ k.prior) : g.priority c = defaultPriority := by
  rw [priority, h.priorities, List.idxOf?_eq_none_iff.2 hc, Option.map_none, Option.getD_none]

/-! ### Edges -/

variable {e e' : Edge}

/-- Among edges of categories that rules make, other than the start symbol, the lower priority
number is preferred, and with equal numbers the edge with more matched patterns. -/
theorem prefers_iff_of_priority (he : e.head ∈ g.nonterminals) (he' : e'.head ∈ g.nonterminals)
    (hstart : e.head ≠ g.start) (hstart' : e'.head ≠ g.start) :
    g.prefers e e' ↔ g.priority e.head < g.priority e'.head ∨
      g.priority e.head = g.priority e'.head ∧ e'.matched.length < e.matched.length := by
  rw [prefers, isTerminal_eq_false_iff.2 he, isTerminal_eq_false_iff.2 he']
  simp [hstart, hstart']

theorem prefers_of_priority_lt (he : e.head ∈ g.nonterminals) (he' : e'.head ∈ g.nonterminals)
    (hstart : e.head ≠ g.start) (hstart' : e'.head ≠ g.start)
    (hlt : g.priority e.head < g.priority e'.head) :
    g.prefers e e' ∧ ¬ g.prefers e' e := by
  rw [prefers_iff_of_priority he he' hstart hstart', prefers_iff_of_priority he' he hstart' hstart]
  omega

end RuleSet

open RuleSet

namespace Grammar

/-! ### Texts -/

/-- The categories of the priority directives of a text, in order, repeated ones included. -/
def mentions (source : Source) (dir text : String) : List Category :=
  (contents (statementsOf source dir text)).prior

/-- **The priority numbers of a rule set that is read.** They are the places of the first mentions,
so of two categories that are mentioned the one with the earlier first mention has the lower number.
A category that is mentioned has a lower number than one that is not if and only if its place is
below the fixed number. Among edges of categories that rules make, other than the start symbol, the
edge with the lower number is preferred, whatever has been matched. -/
theorem priority_of_ofTextIn {source : Source} {dir text : String} {gr : Grammar}
    (h : ofTextIn source dir text = .ok gr) :
    let g := gr.rules
    let place := fun c => (mentions source dir text).idxOf c + 1
    (∀ c ∈ mentions source dir text, g.priority c = place c) ∧
      (∀ c ∉ mentions source dir text, g.priority c = defaultPriority) ∧
      (∀ c ∈ mentions source dir text, ∀ c' ∈ mentions source dir text, place c < place c' →
        g.priority c < g.priority c') ∧
      (∀ c ∈ mentions source dir text, ∀ c' ∉ mentions source dir text,
        (g.priority c < g.priority c' ↔ place c < defaultPriority)) ∧
      ∀ e e' : Edge, e.head ∈ g.nonterminals → e'.head ∈ g.nonterminals →
        e.head ≠ g.start → e'.head ≠ g.start → e.head ∈ mentions source dir text →
          (e'.head ∈ mentions source dir text → place e.head < place e'.head →
            g.prefers e e' ∧ ¬ g.prefers e' e) ∧
          (e'.head ∉ mentions source dir text → place e.head < defaultPriority →
            g.prefers e e' ∧ ¬ g.prefers e' e) ∧
          (e'.head ∉ mentions source dir text → defaultPriority < place e.head →
            g.prefers e' e ∧ ¬ g.prefers e e') := by
  intro g place
  have hcontents := hasContents_of_ofTextIn h
  have hmem : ∀ c ∈ mentions source dir text, g.priority c = place c := fun c hc =>
    hcontents.priority_of_mem hc
  have hnot : ∀ c ∉ mentions source dir text, g.priority c = defaultPriority := fun c hc =>
    hcontents.priority_of_not_mem hc
  refine ⟨hmem, hnot, fun c hc c' hc' hlt => ?_, fun c hc c' hc' => ?_, ?_⟩
  · rwa [hmem c hc, hmem c' hc']
  · rw [hmem c hc, hnot c' hc']
  · intro e e' he he' hstart hstart' hc
    refine ⟨fun hc' hlt => ?_, fun hc' hlt => ?_, fun hc' hlt => ?_⟩
    · refine prefers_of_priority_lt he he' hstart hstart' ?_
      rwa [hmem _ hc, hmem _ hc']
    · refine prefers_of_priority_lt he he' hstart hstart' ?_
      rwa [hmem _ hc, hnot _ hc']
    · refine prefers_of_priority_lt he' he hstart' hstart ?_
      rwa [hmem _ hc, hnot _ hc']

/-- Mentions in two directives, one of them repeated, and a category that is not mentioned. -/
theorem priority_of_repeated_mentions :
    let text := "a ==> X . b ==> X . c ==> X . @PRIOR a a . @START S . @PRIOR b a ."
    ∃ gr, ofText Source.empty text = .ok gr ∧
      gr.rules.priority "a" < gr.rules.priority "b" ∧
      gr.rules.priority "b" < gr.rules.priority "c" := by
  intro text
  obtain ⟨warnings, hload⟩ :
      ∃ warnings, ofText Source.empty text = .ok ⟨RuleSet.ofText text, warnings⟩ :=
    RuleSet.exists_ofText_eq (by decide +kernel)
  obtain ⟨-, -, hlt, hiff, -⟩ := priority_of_ofTextIn hload
  have hmentions : mentions Source.empty "." text = ["a", "a", "b", "a"] := by decide +kernel
  rw [hmentions] at hlt hiff
  exact ⟨_, hload, hlt "a" (by decide) "b" (by decide) (by decide),
    (hiff "b" (by decide) "c" (by decide)).2 (by decide)⟩

/-! ### Places behind the fixed number -/

/-- Three rules and the start symbol. -/
def threeRules : List Statement :=
  ["a", "b", "c"].map (fun head => .rules head [[⟨false, "X", .absent⟩]]) ++
    [.directive "@START" ["S"]]

/-- The statements as a text. -/
def threeRulesText : String :=
  " a ==> X . b ==> X . c ==> X . @START S ."

/-- The text with a priority directive behind it. -/
def mentioningText (cs : List Category) : String :=
  threeRulesText ++ " @PRIOR" ++ String.join (cs.map (" " ++ ·)) ++ " ."

private theorem isName_of_mem {c : Category} (hc : c ∈ ["a", "b", "c", "X", "S"]) :
    IsName c.toList := by
  have hread : ∀ c ∈ ["a", "b", "c", "X", "S"], category? c.toList = some (c.toList, []) := by
    decide
  exact isName_of_category? (hread c hc)

private theorem toList_threeRulesText :
    threeRulesText.toList = (threeRules.flatMap Statement.tokens).flatMap (' ' :: ·) := by
  decide

private theorem loadable_threeRules : Loadable (entries Source.empty ".") threeRules := by
  have hX : Production.Valid (entries Source.empty ".") [⟨false, "X", .absent⟩] :=
    ⟨List.cons_ne_nil _ _, List.forall_mem_singleton.2 ⟨isName_of_mem (by decide), trivial⟩,
      by decide⟩
  have hvalid : ∀ st ∈ threeRules, st.Valid (entries Source.empty ".") := by
    refine List.forall_mem_append.2 ⟨fun st hst => ?_, List.forall_mem_singleton.2
      ⟨isDirectiveName_start, List.forall_mem_singleton.2 (isName_of_mem (by decide))⟩⟩
    obtain ⟨head, hhead, rfl⟩ := List.mem_map.1 hst
    exact ⟨isName_of_mem (List.mem_append_left ["X", "S"] hhead), List.cons_ne_nil _ _,
      List.forall_mem_singleton.2 hX⟩
  have htext : LaidOut [] (threeRules.flatMap Statement.tokens) threeRulesText.toList :=
    toList_threeRulesText ▸ .spaced [] _
  obtain ⟨warnings, hload⟩ : ∃ warnings,
      ofText Source.empty threeRulesText = .ok ⟨RuleSet.ofText threeRulesText, warnings⟩ :=
    RuleSet.exists_ofText_eq (by decide +kernel)
  have hloadable := (loadable_statementsOf hload).2
  rwa [statementsOf_eq hvalid htext] at hloadable

private theorem laidOut_mentioningText (cs : List Category) :
    LaidOut [] ((threeRules ++ [Statement.directive Directive.prior.name cs]).flatMap
      Statement.tokens) (mentioningText cs).toList := by
  have htext : (mentioningText cs).toList =
      ((threeRules ++ [Statement.directive Directive.prior.name cs]).flatMap
        Statement.tokens).flatMap (' ' :: ·) := by
    simp only [mentioningText, String.toList_append, toList_threeRulesText]
    simp [Statement.tokens, Directive.name, List.flatMap_map]
  rw [htext]
  exact .spaced [] _

/-- A priority directive may mention the categories of the rules in any order and number. -/
theorem exists_mentions_mentioningText {cs : List Category} (hcs : cs ⊆ ["a", "b", "c"]) :
    ∃ gr, ofText Source.empty (mentioningText cs) = .ok gr ∧
      mentions Source.empty "." (mentioningText cs) = cs ∧ gr.rules.start = "S" ∧
      ["a", "b", "c"] ⊆ gr.rules.nonterminals := by
  have hnames : ∀ c ∈ cs, IsName c.toList := fun c hc =>
    isName_of_mem (List.mem_append_left ["X", "S"] (hcs hc))
  have hintroduced : (contents threeRules).introduced = ["S", "a", "b", "c"] := rfl
  have hloadable := loadable_threeRules.append_directive .prior hnames
    (hintroduced ▸ List.subset_cons_of_subset "S" hcs)
  have htext := laidOut_mentioningText cs
  have hcontents : contents (statementsOf Source.empty "." (mentioningText cs)) =
      (contents threeRules).declare .prior cs := by
    rw [statementsOf_eq hloadable.valid htext, contents_append_directive]
  obtain ⟨gr, hload⟩ := hloadable.exists_ofTextIn_eq htext
  have hanswers := hasContents_of_ofTextIn hload
  rw [hcontents] at hanswers
  refine ⟨gr, hload, ?_, hanswers.start, fun c hc => (hanswers.nonterminals c).2 (.inr hc)⟩
  rw [mentions, hcontents]
  rfl

/-- The first mention of a category may stand in any place, also behind the fixed number. -/
theorem exists_priority_of_place (n : ℕ) :
    let text := mentioningText (List.replicate n "a" ++ ["b"])
    ∃ gr, ofText Source.empty text = .ok gr ∧ gr.rules.start = "S" ∧
      ["b", "c"] ⊆ gr.rules.nonterminals ∧
      "b" ∈ mentions Source.empty "." text ∧ gr.rules.priority "b" = n + 1 ∧
      "c" ∉ mentions Source.empty "." text ∧ gr.rules.priority "c" = defaultPriority := by
  intro text
  have hcs : List.replicate n "a" ++ ["b"] ⊆ ["a", "b", "c"] := by
    refine List.append_subset.2 ⟨fun c hc => ?_, by decide⟩
    rw [List.eq_of_mem_replicate hc]
    exact List.mem_cons_self
  obtain ⟨gr, hload, hmentions, hstart, hheads⟩ := exists_mentions_mentioningText hcs
  have hb : "b" ∈ mentions Source.empty "." text := by
    rw [hmentions]
    exact List.mem_append_right _ List.mem_cons_self
  have hplace : (mentions Source.empty "." text).idxOf "b" = n := by
    have hnot : "b" ∉ List.replicate n "a" := fun hmem =>
      absurd (List.eq_of_mem_replicate hmem) (by decide)
    rw [hmentions, List.idxOf_append_of_notMem hnot, List.length_replicate, List.idxOf_cons_self,
      Nat.add_zero]
  have hc : "c" ∉ mentions Source.empty "." text := by
    rw [hmentions, List.mem_append]
    rintro (hc | hc)
    · exact absurd (List.eq_of_mem_replicate hc) (by decide)
    · exact absurd hc (by decide)
  have hanswers := hasContents_of_ofTextIn hload
  refine ⟨gr, hload, hstart, List.Subset.trans (List.subset_cons_self "a" _) hheads, hb, ?_, hc,
    hanswers.priority_of_not_mem hc⟩
  rw [← hplace]
  exact hanswers.priority_of_mem hb

/-- A mentioned category in a place behind the fixed number. -/
theorem exists_prefers_of_not_mentioned :
    let text := mentioningText (List.replicate 9999 "a" ++ ["b"])
    ∃ gr, ofText Source.empty text = .ok gr ∧ gr.rules.start = "S" ∧
      ["b", "c"] ⊆ gr.rules.nonterminals ∧
      "b" ∈ mentions Source.empty "." text ∧ "c" ∉ mentions Source.empty "." text ∧
      ¬ gr.rules.priority "b" < gr.rules.priority "c" ∧
      ∀ e e' : Edge, e.head = "b" → e'.head = "c" →
        gr.rules.prefers e' e ∧ ¬ gr.rules.prefers e e' := by
  obtain ⟨gr, hload, hstart, hheads, hb, hnumber, hc, hfixed⟩ := exists_priority_of_place 9999
  have hlt : gr.rules.priority "c" < gr.rules.priority "b" := by
    rw [hnumber, hfixed]
    exact Nat.lt_succ_self 9999
  refine ⟨gr, hload, hstart, hheads, hb, hc, Nat.lt_asymm hlt, fun e e' he he' => ?_⟩
  refine prefers_of_priority_lt ?_ ?_ ?_ ?_ ?_
  · rw [he']
    exact hheads (by decide)
  · rw [he]
    exact hheads (by decide)
  · rw [he', hstart]
    decide
  · rw [he, hstart]
    decide
  · rwa [he, he']

end Grammar

end Chunker
