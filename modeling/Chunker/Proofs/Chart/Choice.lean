import Chunker.Proofs.Chart.Grounding
import Chunker.Proofs.Chart.Place

/-!
# The edge that is taken for a category

A search for a derivation takes the best complete edge of a category in a cell. In a parsed chart
whose words are not tagged with nonterminals, such an edge has matched a pattern, and the cells of
its patterns are consecutive over the words of its own cell. So either these cells are shorter, or
there is one of them and it is the cell itself. In the second case the edge was opened by an
earlier complete edge of the cell: the pattern is the category of that edge, or it is a wildcard
that matches a category of a word.

## Main results

* `Chart.matched_of_bestFor?` : what the edge has matched.
* `Chart.exists_before_of_mem_backpath` : what has opened an edge that its own cell carries.
* `Chart.firstPlace_lt_or_wild` : a pattern of the edge is found at an earlier place, unless it is
  a wildcard that matches a word.
-/

namespace Chunker

/-- The categories of a word are no nonterminals unless its tags are. -/
theorem Sentence.Offers.not_mem_nonterminals {g : RuleSet} {s : Sentence} {k j : Nat}
    {x : Category} (h : s.Offers k j x) (hg : g.WellFormed)
    (htags : ∀ w ∈ s.words, ∀ a ∈ w.analyses k, a.tag ∉ g.nonterminals) :
    x ∉ g.nonterminals := by
  obtain ⟨w, hw, a, ha, hx⟩ := h
  rcases hx with rfl | rfl | rfl
  · exact htags w (List.mem_of_getElem? hw) a ha
  · exact hg.not_mem_nonterminals (b := '(') rfl (by simp)
  · exact hg.not_mem_nonterminals (b := '<') rfl (by simp)

namespace Chart

variable {g : RuleSet} {s : Sentence} {k : Nat} {chart : Chart} {c d : Coord} {x q : Category}
  {e : Edge} {before after : List Edge}

theorem Grounded.matched_of_mem (he : Grounded g s k chart c before e) (hg : g.WellFormed)
    (htags : ∀ w ∈ s.words, ∀ a ∈ w.analyses k, a.tag ∉ g.nonterminals)
    (hx : e.head ∈ g.nonterminals) :
    e.matched.length = e.backpath.length ∧ Coord.Consecutive c.start c.stop e.backpath ∧
      ∀ q d, (q, d) ∈ e.matched.zip e.backpath → Carries g chart c before q d := by
  cases he with
  | offered _ hoffer => exact absurd hx (hoffer.not_mem_nonterminals hg htags)
  | matched _ hle hcs hm => exact ⟨Edge.length_matched hle, hcs, hm⟩

section Parsed

variable (hg : g.Loaded)
  (htags : ∀ w ∈ s.words, ∀ a ∈ w.analyses k, a.tag ∉ g.nonterminals) (hc : c.within s.size)
include hg htags hc

/-- An edge of a parsed chart for a nonterminal has matched at least one pattern. -/
theorem matched_ne_nil (he : e ∈ (parsed g s k).cell c) (hx : e.head ∈ g.nonterminals) :
    e.matched ≠ [] := by
  obtain ⟨before, after, hcell⟩ := List.append_of_mem he
  obtain ⟨hlength, hcs, -⟩ :=
    (grounded_of_cell_parse hg hc hcell).matched_of_mem hg.wellFormed htags hx
  rw [← List.length_pos_iff, hlength, List.length_pos_iff]
  exact hcs.ne_nil c.start_lt_stop

/-- What the edge that is taken for a nonterminal has matched: its cells are consecutive over the
words of the cell, and in each of them a complete edge matches the pattern. -/
theorem matched_of_bestFor? (hx : x ∈ g.nonterminals)
    (hbest : (parsed g s k).bestFor? g c x = some e) :
    e.matched.length = e.backpath.length ∧ Coord.Consecutive c.start c.stop e.backpath ∧
      ∀ q d, (q, d) ∈ e.matched.zip e.backpath →
        ∃ e' ∈ (parsed g s k).cell d, e'.isComplete ∧ g.Matches q e'.head := by
  obtain ⟨hmakes, before, after, hcell, -⟩ := exists_split_of_bestFor? hbest
  obtain ⟨hlength, hcs, hcarries⟩ := (grounded_of_cell_parse hg hc hcell).matched_of_mem
    hg.wellFormed htags ((makes_iff.1 hmakes).2.symm ▸ hx)
  refine ⟨hlength, hcs, fun q d hqd => ?_⟩
  obtain ⟨e', he', -, hcomplete, hm⟩ := hcarries q d hqd
  exact ⟨e', he', hcomplete, hm⟩

/-- An edge for a nonterminal that is carried by its own cell has one matched pattern. An earlier
complete edge of the cell makes this pattern, or has a terminal that the pattern matches through
a wildcard. -/
theorem exists_before_of_mem_backpath (hcell : (parsed g s k).cell c = before ++ e :: after)
    (hx : e.head ∈ g.nonterminals) (hmem : c ∈ e.backpath) :
    e.backpath = [c] ∧ ∃ q, e.matched = [q] ∧ ∃ e' ∈ before, e'.isComplete ∧
      (e'.head = q ∨ e.rule ∈ g.rules ∧ e'.head ∉ g.nonterminals ∧ Category.isWild q ∧
        g.accepts q e'.head) := by
  obtain ⟨hlength, hcs, -⟩ :=
    (grounded_of_cell_parse hg hc hcell).matched_of_mem hg.wellFormed htags hx
  have hpath : e.backpath = [c] := hcs.eq_singleton hmem le_rfl
  obtain ⟨q, hq⟩ := List.length_eq_one_iff.1 (hlength.trans (hpath ▸ List.length_singleton))
  refine ⟨hpath, q, hq, ?_⟩
  rcases cell_parse_cases (isFull_load g s k) hc hcell with ⟨after', hfill⟩ | ⟨rfl, hadded, rfl⟩
  · rcases enters_or_opens hg.wellFormed hc hfill with hin | ⟨e', he', ho⟩
    · cases hin with
      | offered _ hoffer =>
        exact absurd hx (hoffer.not_mem_nonterminals hg.wellFormed htags)
      | extended hs _ _ _ =>
        -- An extended edge ends with a shorter cell.
        have hspan := (Coord.span_lt_of_mem_splits hs).2
        obtain rfl := Option.some.inj
          (List.getLast?_concat.symm.trans (congrArg List.getLast? hpath))
        exact absurd hspan (lt_irrefl _)
    · obtain ⟨hcomplete, hr, ⟨q', hq', hs⟩, -⟩ := ho
      obtain rfl : q' = q := by
        obtain ⟨qs, hqs⟩ := List.head?_eq_some_iff.1 hq'
        rw [Edge.matched, hpath, hqs] at hq
        exact (List.cons.inj hq).1
      rcases hs with hhead | ⟨hterminal, hwild, ha⟩
      · exact ⟨e', he', hcomplete, .inl hhead.symm⟩
      · exact ⟨e', he', hcomplete, .inr ⟨hr, RuleSet.isTerminal_iff.1 hterminal, hwild, ha⟩⟩
  · -- The pattern of an added root is the category of the best edge of the cell.
    obtain ⟨-, -, cs, xs, -, hheads, rfl⟩ := addedRoot?_eq_some hadded
    obtain rfl : cs = [(load g s k).top] := hpath
    cases hheads with
    | cons hbest hnil =>
      cases hnil
      obtain ⟨e', he', rfl⟩ := hbest
      obtain ⟨hin, hcomplete⟩ := List.mem_filter.1 (RuleSet.mem_of_best? he')
      exact ⟨e', hin, hcomplete, .inl (List.cons.inj hq).1⟩

/-- A pattern of the edge that is taken for a nonterminal is found at an earlier place, if it is
found in its cell at all. The exception is a rule whose only pattern is a wildcard that matches a
category of a word. -/
theorem firstPlace_lt_or_wild (hx : x ∈ g.nonterminals)
    (hbest : (parsed g s k).bestFor? g c x = some e) (hqd : (q, d) ∈ e.matched.zip e.backpath)
    (hmade : ∃ e' ∈ (parsed g s k).cell d, makes q e') :
    (parsed g s k).firstPlace d q < (parsed g s k).firstPlace c x ∨
      d = c ∧ e.rule ∈ g.rules ∧ e.rule.right = [q] ∧ Category.isWild q ∧
        ∃ y, s.Offers k c.start y ∧ g.accepts q y := by
  obtain ⟨hmakes, before, after, hcell, hfewer⟩ := exists_split_of_bestFor? hbest
  obtain ⟨hcomplete, rfl⟩ := makes_iff.1 hmakes
  obtain ⟨-, hcs, -⟩ := matched_of_bestFor? hg htags hc hx hbest
  have hd : d ∈ e.backpath := (List.of_mem_zip hqd).2
  have hsize : (parsed g s k).size = s.size := size_parse g (load g s k)
  rcases hcs.span_lt_or_eq_singleton hd with hspan | hpath
  · have hdin : d.within s.size := by
      rw [Coord.within_iff_stop] at hc ⊢
      exact (hcs.bounds hd).2.trans hc
    refine .inl (firstPlace_lt_of_index_lt (isFull_load g s k).parse (hsize ▸ hdin) hmade ?_)
    rw [hsize]
    exact Coord.index_lt_index hdin hc (.inl hspan)
  · obtain rfl : d = c := by simpa [hpath] using hd
    obtain ⟨-, q', hmatched, e', he', hcomplete', hcases⟩ :=
      exists_before_of_mem_backpath hg htags hc hcell hx hd
    obtain rfl : q = q' := by simpa [hmatched, hpath] using hqd
    rcases hcases with rfl | ⟨hr, hterminal, hwild, ha⟩
    · -- The edge has one matched pattern, so no complete edge of the category is before it.
      refine .inl (firstPlace_lt_of_mem_before hcell (fun e'' he'' hmakes'' => ?_)
        ⟨e', he', makes_iff.2 ⟨hcomplete', rfl⟩⟩)
      have hne := matched_ne_nil hg htags hc (hcell ▸ List.mem_append_left _ he'')
        ((makes_iff.1 hmakes'').2 ▸ hx)
      have hlt := hfewer e'' he'' hmakes''
      rw [hmatched, List.length_singleton, Nat.lt_one_iff, List.length_eq_zero_iff] at hlt
      exact hne hlt
    · have hright : e.rule.right = [q] := by
        rw [Edge.matched, List.take_of_length_le (Edge.isComplete_iff.1 hcomplete)] at hmatched
        exact hmatched
      have hin : e' ∈ (parsed g s k).cell d := hcell ▸ List.mem_append_left _ he'
      exact .inr ⟨rfl, hr, hright, hwild, e'.head,
        (offers_of_terminal hg hc hin hterminal).2, ha⟩

end Parsed

end Chart

end Chunker
