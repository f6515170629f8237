import Chunker.Proofs.Chart.Extraction
import Chunker.Proofs.Chart.Gaps
import Chunker.Proofs.Chart.RootChoice
import Chunker.Proofs.Chunking.Sequences

/-!
# Coverage of sentences

A sentence whose words have analyses can always be parsed, as a cover of its words is found where
no rule spans them. Its tree is matched with the words if it has a leaf for each of them. The
leaves stand for cells that cover the words, so this holds if every leaf stands for one word. Only
a pattern with a wildcard can do otherwise: it ends the search as a terminal, but if it is not the
first pattern of its rule, a category over several words may have matched it.

## Main definitions

* `Chart.HasWordLeaves` : every wildcard in which the search for the tree of a cell ends stands
  for one word.

## Main results

* `RuleSet.exists_chunkSequence_eq_ok_iff` : when a tag sequence has a tree.
* `RuleSet.chunk_eq_ok_iff` : when a sentence has its trees, and what their leaves are.
* `RuleSet.chunk_ne_ok` : a sentence that has no tree.
-/

namespace Chunker

namespace Chart

variable {g : RuleSet} {s : Sentence} {k : Nat}

/-- Holds of a cell with a visible category, in the search for which every wildcard that is met
stands for one word. -/
def HasWordLeaves (g : RuleSet) (chart : Chart) (c : Coord) : Prop :=
  ∃ x, chart.visibleHead? g c = some x ∧ ∀ d q, MadeFrom g chart c x d q →
    q ∉ g.nonterminals → Category.isWild q → d.span = 0

/-- The tree of all words has a leaf for each word if and only if the wildcards stand for one word
each. -/
theorem length_frontier_eq_iff (hf : g.Fits s k) (hne : s.words ≠ []) {x : Category}
    (hx : (parsed g s k).visibleHead? g (parsed g s k).top = some x) :
    (((parsed g s k).derive g (parsed g s k).top x).tree g).frontier.length = s.size ↔
      ∀ d q, MadeFrom g (parsed g s k) (parsed g s k).top x d q → q ∉ g.nonterminals →
        Category.isWild q → d.span = 0 := by
  have hsize : (parsed g s k).size = s.size := size_parse g (load g s k)
  have hpos : (parsed g s k).size ≠ 0 := hsize ▸ mt List.length_eq_zero_iff.1 hne
  have hready := ready_of_visibleHead? (hsize ▸ within_top hpos) hx
  have hlabels := congrArg List.length (map_label_frontier_deriveWithin hf hready)
  have hcells := consecutive_leafCells hf hready
  rw [start_top, stop_top hpos, hsize] at hcells
  rw [List.length_map, List.length_map] at hlabels
  have hlength := hcells.length_eq_iff
  rw [Nat.zero_add, List.length_map, ← hlabels] at hlength
  refine hlength.trans ⟨fun h d q hmade hq _ => ?_, fun h d hd => ?_⟩
  · exact h d (List.mem_map.2 ⟨(q, d), (mem_leafCells_iff hf hready).2 ⟨hmade, hq⟩, rfl⟩)
  · obtain ⟨⟨q, d⟩, hqd, rfl⟩ := List.mem_map.1 hd
    obtain ⟨hmade, hq⟩ := (mem_leafCells_iff hf hready).1 hqd
    rcases Bool.eq_false_or_eq_true (Category.isWild q) with hwild | hwild
    · exact h d q hmade hq hwild
    · exact (found_of_mem_leafCells hf hready hqd).2 hwild

/-- Where no wildcard after the first pattern of a rule matches a nonterminal, the wildcards stand
for one word each, provided that the start symbol is not hidden. -/
theorem hasWordLeaves_of_wildcardsApart (hf : g.Fits s k) (hsep : g.WildcardsApart)
    (hhidden : g.start ∉ g.hidden) (hok : ((load g s k).parse g).1 = .ok ()) :
    HasWordLeaves g (parsed g s k) (parsed g s k).top := by
  have hne := visibleEdges_parse_ne_nil hhidden (isFull_load g s k) hok
  rw [← top_parse g] at hne
  obtain ⟨e, he⟩ := List.exists_mem_of_ne_nil _ hne
  obtain ⟨x, hx⟩ := exists_visibleHead? ⟨e, mem_visibleEdges.1 he⟩
  have hc : (parsed g s k).top.within s.size := by
    have hin := within_top (parse_ok_iff.1 hok).1
    rwa [← top_parse g, size_load] at hin
  have hready := ready_of_visibleHead? hc hx
  refine ⟨x, hx, fun d q hmade hq hwild => ?_⟩
  refine span_eq_zero_of_mem_leafCells hf hsep hready (fun hxwild => ?_)
    ((mem_leafCells_iff hf hready).2 ⟨hmade, hq⟩) hwild
  obtain ⟨v, hv, rfl⟩ := Option.map_eq_some_iff.1 hx
  have hcomplete := (List.mem_filter.1 (RuleSet.mem_of_best? hv)).1
  refine span_eq_zero_of_terminal hf.loaded hc (List.mem_filter.1 hcomplete).1 fun hmem => ?_
  rw [hf.plain _ hmem] at hxwild
  cases hxwild

end Chart

namespace RuleSet

variable {g : RuleSet} {s : Sentence} {k : Nat}

/-! ### One tag sequence -/

/-- A tag sequence has a tree if and only if the wildcards that are met stand for one word each. -/
theorem exists_chunkSequence_eq_ok_iff (hf : g.Fits s k) (hne : s.words ≠ [])
    (hwords : ∀ w ∈ s.words, w.analyses k ≠ []) :
    (∃ t, (g.chunkSequence s k).1 = .ok t) ↔
      Chart.HasWordLeaves g (Chart.parsed g s k) (Chart.parsed g s k).top := by
  rw [chunkSequence_fst, (Chart.parse_load_eq_ok_iff hf.loaded.wellFormed).2 ⟨hne, hwords⟩]
  cases hx : (Chart.parsed g s k).visibleHead? g (Chart.parsed g s k).top with
  | none =>
    simp [Chart.extract, Chart.HasWordLeaves, hx]
  | some x =>
    have hsize : (Chart.parsed g s k).size = s.size := Chart.size_parse g (Chart.load g s k)
    have hpos : (Chart.parsed g s k).size ≠ 0 := hsize ▸ mt List.length_eq_zero_iff.1 hne
    have hleaves := Chart.length_frontier_eq_iff hf hne hx
    rw [Chart.extract_eq_ok hf (hsize ▸ Chart.within_top hpos) hx]
    simp only [Sentence.exists_bindTree_eq_ok_iff, hleaves, Chart.HasWordLeaves, hx,
      Option.some.injEq, exists_eq_left']

/-! ### Sentences -/

theorem map_word_frontier_of_chunkSequence {t : Tree} (h : (g.chunkSequence s k).1 = .ok t) :
    t.frontier.map (·.root.word) = s.words.map some := by
  rw [chunkSequence_fst] at h
  split at h
  · cases h
  · split at h
    · cases h
    · exact Sentence.map_word_frontier_of_bindTree h

/-- A sentence whose words have analyses by terminals gets all its trees if and only if, in the
search for each of them, the wildcards that are met stand for one word each. Then the leaves of
each tree are bound to the words in order. It is so where no wildcard after the first pattern of a
rule matches a nonterminal and the start symbol is not hidden. -/
theorem chunk_eq_ok_iff (hg : g.Loaded) (hplain : ∀ x ∈ g.nonterminals, '*' ∉ x.toList)
    (hne : s.words ≠ [])
    (hwords : ∀ k < s.sequences, ∀ w ∈ s.words,
      w.analyses k ≠ [] ∧ ∀ a ∈ w.analyses k, a.tag ∉ g.nonterminals) :
    ((g.chunk s).result = .ok () ↔ ∀ k < s.sequences,
        Chart.HasWordLeaves g (Chart.parsed g s k) (Chart.parsed g s k).top) ∧
      ((g.chunk s).result = .ok () → ∀ k < s.sequences, ∃ t,
        (g.chunk s).sentence.tree? k = some t ∧
          t.frontier.map (·.root.word) = s.words.map some) ∧
      (g.start ∉ g.hidden → g.WildcardsApart → (g.chunk s).result = .ok ()) := by
  have hchunk : g.chunk s = g.chunkSequences s (List.range s.sequences) := by
    rw [chunk, Sentence.isEmpty, if_neg (by simpa using hne)]
  have hfits (k : Nat) (hk : k < s.sequences) : g.Fits s k :=
    ⟨hg, fun x hx => Category.isWild_eq_false_iff.2 (hplain x hx),
      fun w hw => (hwords k hk w hw).2⟩
  have hanalyses (k : Nat) (hk : k < s.sequences) : ∀ w ∈ s.words, w.analyses k ≠ [] :=
    fun w hw => (hwords k hk w hw).1
  have hiff : (g.chunk s).result = .ok () ↔ ∀ k < s.sequences,
      Chart.HasWordLeaves g (Chart.parsed g s k) (Chart.parsed g s k).top := by
    rw [hchunk, chunkSequences_eq_ok_iff]
    simp only [List.mem_range]
    exact forall₂_congr fun k hk =>
      exists_chunkSequence_eq_ok_iff (hfits k hk) hne (hanalyses k hk)
  refine ⟨hiff, fun hok k hk => ?_, fun hhidden hsep => hiff.2 fun k hk => ?_⟩
  · rw [hchunk] at hok ⊢
    obtain ⟨t, ht⟩ := chunkSequences_eq_ok_iff.1 hok k (List.mem_range.2 hk)
    exact ⟨t, tree?_chunkSequences_of_mem hok (List.mem_range.2 hk) ht,
      map_word_frontier_of_chunkSequence ht⟩
  · exact Chart.hasWordLeaves_of_wildcardsApart (hfits k hk) hsep hhidden
      ((Chart.parse_load_eq_ok_iff hg.wellFormed).2 ⟨hne, hanalyses k hk⟩)

/-- A wildcard at the first position of a rule and a nonterminal at the second. -/
theorem chunk_eq_ok_of_first_wildcard :
    let g := RuleSet.ofText "np ==> DT, +NN . x ==> +VB*, np . @START S ."
    let s : Sentence := ⟨"1", [.tagged "sees" "see" "VBZ", .tagged "the" "the" "DT",
      .tagged "cat" "cat" "NN"], [none]⟩
    g.Loaded ∧ (∀ x ∈ g.nonterminals, '*' ∉ x.toList) ∧ s.words ≠ [] ∧
      (∀ k < s.sequences, ∀ w ∈ s.words,
        w.analyses k ≠ [] ∧ ∀ a ∈ w.analyses k, a.tag ∉ g.nonterminals) ∧
      (g.chunk s).result = .ok () ∧
      ∃ t, (g.chunk s).sentence.tree? 0 = some t ∧
        t.frontier.map (·.root.word) = s.words.map some := by
  intro g s
  have hg : g.Loaded := RuleSet.loaded_ofText (by decide +kernel)
  have hplain : ∀ x ∈ g.nonterminals, '*' ∉ x.toList := by decide +kernel
  have hne : s.words ≠ [] := List.cons_ne_nil _ _
  have hwords : ∀ k < s.sequences, ∀ w ∈ s.words,
      w.analyses k ≠ [] ∧ ∀ a ∈ w.analyses k, a.tag ∉ g.nonterminals := by decide +kernel
  obtain ⟨-, htrees, hok⟩ := chunk_eq_ok_iff hg hplain hne hwords
  have hresult := hok (by decide +kernel) (by decide +kernel)
  exact ⟨hg, hplain, hne, hwords, hresult, htrees hresult 0 (by decide)⟩

/-- A wildcard at the second position of a rule, which a category over two words matches: the tree
has two leaves for three words. -/
theorem chunk_ne_ok :
    let g := RuleSet.ofText "np ==> DT, +NN . x ==> +VB, n* . @START S ."
    let s : Sentence := ⟨"1", [.tagged "sees" "see" "VB", .tagged "the" "the" "DT",
      .tagged "cat" "cat" "NN"], [none]⟩
    g.Loaded ∧ (∀ x ∈ g.nonterminals, '*' ∉ x.toList) ∧ s.words ≠ [] ∧
      (∀ k < s.sequences, ∀ w ∈ s.words,
        w.analyses k ≠ [] ∧ ∀ a ∈ w.analyses k, a.tag ∉ g.nonterminals) ∧
      (g.chunk s).result ≠ .ok () := by
  intro g s
  have hfails : (g.chunk s).result.isOk = false := by decide +kernel
  refine ⟨RuleSet.loaded_ofText (by decide +kernel), by decide +kernel, List.cons_ne_nil _ _,
    by decide +kernel, fun hok => ?_⟩
  rw [hok] at hfails
  cases hfails

end RuleSet

end Chunker
