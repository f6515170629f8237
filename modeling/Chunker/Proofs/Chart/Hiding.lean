import Chunker.Proofs.Chart.Search

/-!
# What is left out of trees

Categories that are hidden, or for the root only, or flat below one of the same name, are left out
of a tree, and their children take their place. No category that is to be left out is met below the
root: children that come up from several levels were placed below a parent before, and they are not
left out because of where they come to stand. The leaves are never left out, as they are terminals,
so the tree has the leaves, in the same order, that it would have if nothing were left out.

## Main definitions

* `RuleSet.showingAll` : the rule set that leaves nothing out.

## Main results

* `Derivation.all_visible` : nothing that is hidden or for the root only is below the root.
* `Derivation.Proper.map_label_frontier_showingAll` : the leaves are those of the whole tree.
* `Chart.hiding_of_extract` : both for the trees of cells.
-/

namespace Chunker

/-- The rule set that leaves no category out of trees. -/
def RuleSet.showingAll (g : RuleSet) : RuleSet :=
  { g with hidden := [], flat := [], onlyTop := [] }

theorem RuleSet.WellFormed.showingAll {g : RuleSet} (h : g.WellFormed) :
    g.showingAll.WellFormed :=
  { h with hidden := List.nil_subset _, flat := List.nil_subset _, onlyTop := List.nil_subset _ }

namespace Derivation

variable {g : RuleSet} {d : Derivation}

/-- No category that is hidden or for the root only is below the root of the tree of a
derivation. -/
theorem all_visible (d : Derivation) :
    Tree.All (fun u => u.label ∉ g.hidden ∧ u.label ∉ g.onlyTop) (d.tree g).children := by
  induction d using Derivation.induction with
  | leaf x => rw [tree]; exact Tree.all_nil
  | fault err => rw [tree]; exact Tree.all_nil
  | step x c governor parts ih =>
    rw [tree]
    refine all_childrenFrom (fun _ _ h => h) ih (fun d _ hout => ?_) governor 0
    simp only [RuleSet.leavesOut, RuleSet.isHidden, RuleSet.isOnlyTop, Bool.or_eq_false_iff,
      decide_eq_false_iff_not] at hout
    rw [label_tree]
    exact hout.1

/-- A derivation that is proper is so whatever is left out of trees. -/
theorem Proper.showingAll (h : d.Proper g) : d.Proper g.showingAll := by
  induction h with
  | leaf h => exact .leaf h
  | step hne _ ih => exact .step hne ih

/-- The leaves of the tree of a proper derivation are those of the tree from which nothing is left
out. -/
theorem Proper.map_label_frontier_showingAll (hg : g.WellFormed) (h : d.Proper g) :
    (d.tree g.showingAll).frontier.map Tree.label = (d.tree g).frontier.map Tree.label := by
  induction h with
  | leaf h => rw [tree, tree]
  | @step x c governor parts hne hparts ih =>
    have hstep : (Derivation.step x c governor parts).Proper g := .step hne hparts
    rw [hstep.map_label_frontier_step hg, hstep.showingAll.map_label_frontier_step hg.showingAll]
    exact List.flatMap_congr ih

end Derivation

namespace Chart

variable {g : RuleSet} {s : Sentence} {k : Nat} {c : Coord}

/-- What is left out of trees does not matter for the search. -/
theorem deriveWithin_showingAll (chart : Chart) (n : Nat) (x : Category) :
    chart.deriveWithin g.showingAll n c x = chart.deriveWithin g n c x := by
  induction n generalizing c x with
  | zero => rfl
  | succ n ih =>
    simp only [deriveWithin, ih]
    rfl

/-- What a tree that is extracted from a cell of a parsed chart leaves out. No node below the root
is labelled with a category that is hidden or for the root only, and the root is not labelled with
a hidden one. The leaves, from left to right, have the labels that they have in the tree which is
extracted from the same chart for the same label if nothing is left out. -/
theorem hiding_of_extract {t : Tree} (hg : g.Loaded)
    (htags : ∀ w ∈ s.words, ∀ a ∈ w.analyses k, a.tag ∉ g.nonterminals)
    (hc : c.within s.size) (h : (((load g s k).parse g).2.extract g c).1 = .ok t) :
    let chart := ((load g s k).parse g).2
    t.label ∉ g.hidden ∧
      (∀ u ∈ Tree.subtreesOf t.children, u.label ∉ g.hidden ∧ u.label ∉ g.onlyTop) ∧
      ∃ t', ((chart.derive g.showingAll c t.label).outcome g.showingAll).1 = .ok t' ∧
        t'.label = t.label ∧ t'.frontier.map Tree.label = t.frontier.map Tree.label := by
  intro chart
  obtain ⟨hfound, htree⟩ := finds_of_extract h
  have hproper := hfound.proper hg htags hc
  have hsame : chart.derive g.showingAll c t.label = chart.derive g c t.label :=
    deriveWithin_showingAll chart _ t.label
  refine ⟨?_, ?_, (chart.derive g c t.label).tree g.showingAll, ?_, ?_, ?_⟩
  · obtain ⟨e, he, hlabel⟩ := Option.map_eq_some_iff.1 (label_of_extract h)
    have hvisible := (List.mem_filter.1 (RuleSet.mem_of_bestOn he)).2
    rw [hlabel] at hvisible
    simpa [RuleSet.isHidden] using hvisible
  · rw [← htree]
    exact Derivation.all_visible _
  · rw [hsame]
    exact hproper.showingAll.outcome_eq
  · rw [Derivation.label_tree, ← Derivation.label_tree g]
    exact congrArg Tree.label htree
  · rw [hproper.map_label_frontier_showingAll hg.wellFormed]
    exact congrArg (fun u => u.frontier.map Tree.label) htree

/-- A flat noun phrase below another, with a hidden part in it that stands above one for the root
only. -/
theorem hiding_of_extract_nested_hidden :
    let g := RuleSet.ofText
      "s ==> +np . np ==> +np, VB* . np ==> DT, +n . n ==> +m . m ==> +N* . @HIDDEN n . @ONLYTOP m . @FLAT np . @START s ."
    let s : Sentence := ⟨"1", [.tagged "The" "the" "DT", .tagged "cat" "cat" "NN",
      .tagged "sleeping" "sleep" "VBG"], []⟩
    let chart := parsed g s 0
    g.Loaded ∧ (∀ w ∈ s.words, ∀ a ∈ w.analyses 0, a.tag ∉ g.nonterminals) ∧
      (⟨2, 0⟩ : Coord).within s.size ∧ ∃ t t', (chart.extract g ⟨2, 0⟩).1 = .ok t ∧
        ((chart.derive g.showingAll ⟨2, 0⟩ t.label).outcome g.showingAll).1 = .ok t' ∧
        (∀ u ∈ Tree.subtreesOf t.children, u.label ∉ g.hidden ∧ u.label ∉ g.onlyTop) ∧
        t.subtrees.length = 5 ∧ t'.subtrees.length = 8 ∧
        t'.frontier.map Tree.label = t.frontier.map Tree.label := by
  intro g s chart
  have hg : g.Loaded := RuleSet.loaded_ofText (by decide +kernel)
  have htags : ∀ w ∈ s.words, ∀ a ∈ w.analyses 0, a.tag ∉ g.nonterminals := by decide +kernel
  have hc : (⟨2, 0⟩ : Coord).within s.size := by decide
  have hsome : (chart.extract g ⟨2, 0⟩).1.toOption.map
      (fun t => (t.label, t.subtrees.length)) = some ("s", 5) := by decide +kernel
  have hall : ((chart.derive g.showingAll ⟨2, 0⟩ "s").outcome g.showingAll).1.toOption.map
      (fun t => t.subtrees.length) = some 8 := by decide +kernel
  cases h : (chart.extract g ⟨2, 0⟩).1 with
  | error err =>
    rw [h] at hsome
    cases hsome
  | ok t =>
    rw [h] at hsome
    obtain ⟨hlabel, hlength⟩ := Prod.mk.inj (Option.some.inj hsome)
    obtain ⟨-, hbelow, t', ht', -, hleaves⟩ := hiding_of_extract hg htags hc h
    rw [← hlabel, ht'] at hall
    exact ⟨hg, htags, hc, t, t', rfl, ht', hbelow, hlength, Option.some.inj hall, hleaves⟩

end Chart

end Chunker
