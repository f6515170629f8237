import Chunker.Proofs.Chart.Derivability

/-!
# What carries the edges of a parsed chart

Every edge of a parsed chart is a category that a word brings, or it has matched patterns. The
cells of the matched patterns are consecutive over the words of its own cell, and each of them
holds a complete edge that the pattern matches. Where such a cell is the cell of the edge itself,
the complete edge stands before it. This holds of an added root as well.

## Main definitions

* `RuleSet.Matches` : the match of a pattern of an edge with a category.
* `Chart.Carries` : a complete edge that matches a pattern and comes before a given place.
* `Chart.Grounded` : an edge that is carried by words or by edges before it.

## Main results

* `Chart.grounded_of_cell_parse` : every edge of a parsed chart is grounded.
-/

namespace Chunker

namespace Edge

theorem matched_append {e : Edge} {q : Category} (h : e.next? = some q) (d : Coord) :
    (Edge.mk e.rule (e.backpath ++ [d])).matched = e.matched ++ [q] := by
  rw [next?_eq] at h
  rw [matched, matched, List.length_append, List.length_singleton, List.take_add_one, h]
  rfl

theorem length_matched {e : Edge} (h : e.backpath.length ≤ e.rule.right.length) :
    e.matched.length = e.backpath.length := by
  rw [matched, List.length_take, Nat.min_eq_left h]

end Edge

/-- The match of a pattern of an edge with a category. A first pattern matches a nonterminal only
if the two are equal; later patterns of a rule may match it through a wildcard. -/
def RuleSet.Matches (g : RuleSet) (q x : Category) : Prop :=
  q = x ∨ g.accepts q x ∧ (g.isTerminal x ∨ ∃ r ∈ g.rules, q ∈ r.right.tail)

namespace RuleSet

variable {g : RuleSet} {q x : Category}

theorem Matches.accepts (h : g.Matches q x) : g.accepts q x := by
  rcases h with rfl | ⟨h, -⟩
  · exact g.accepts_self q
  · exact h

theorem Starts.matches (h : g.Starts x q) : g.Matches q x := by
  rcases h with rfl | ⟨hterminal, -, ha⟩
  · exact .inl rfl
  · exact .inr ⟨ha, .inl hterminal⟩

end RuleSet

namespace Chart

variable {g : RuleSet} {s : Sentence} {k : Nat} {chart chart' : Chart} {c : Coord}
  {before : List Edge} {e : Edge}

/-- Holds of a pattern and a cell with a complete edge that the pattern matches. If the cell is a
given one, the edge is one of those before a place in it. -/
def Carries (g : RuleSet) (chart : Chart) (c : Coord) (before : List Edge) (q : Category)
    (d : Coord) : Prop :=
  ∃ e ∈ chart.cell d, (d = c → e ∈ before) ∧ e.isComplete ∧ g.Matches q e.head

/-- Holds of an edge of a cell that is carried by a word or by other edges, those of its own cell
being before it. -/
inductive Grounded (g : RuleSet) (s : Sentence) (k : Nat) (chart : Chart) (c : Coord)
    (before : List Edge) : Edge → Prop
  | offered {x : Category} (hc : c.span = 0) (hx : s.Offers k c.start x) :
      Grounded g s k chart c before (Edge.lexical x)
  | matched {e : Edge} (hhead : e.head ∈ g.nonterminals)
      (hle : e.backpath.length ≤ e.rule.right.length)
      (hcs : Coord.Consecutive c.start c.stop e.backpath)
      (hm : ∀ q d, (q, d) ∈ e.matched.zip e.backpath → Carries g chart c before q d) :
      Grounded g s k chart c before e

/-- An edge stays grounded when cells grow. -/
theorem Grounded.mono (h : Grounded g s k chart c before e)
    (hsub : ∀ d : Coord, c.start ≤ d.start → d.stop ≤ c.stop → chart.cell d ⊆ chart'.cell d) :
    Grounded g s k chart' c before e := by
  cases h with
  | offered hc hx => exact .offered hc hx
  | matched hhead hle hcs hm =>
    refine .matched hhead hle hcs fun q d hqd => ?_
    obtain ⟨hlo, hhi⟩ := hcs.bounds (List.of_mem_zip hqd).2
    obtain ⟨e', he', hrest⟩ := hm q d hqd
    exact ⟨e', hsub d hlo hhi he', hrest⟩

/-- A complete edge carries the edges that it opens. -/
theorem grounded_of_opens (h : g.WellFormed) {e' : Edge} (hin : e' ∈ chart.cell c)
    (hbefore : e' ∈ before) (ho : g.Opens c e' e) : Grounded g s k chart c before e := by
  obtain ⟨hcomplete, hr, ⟨q, hq, hs⟩, hpath⟩ := ho
  have hmatched : e.matched = [q] := by
    obtain ⟨qs, hqs⟩ := List.head?_eq_some_iff.1 hq
    rw [Edge.matched, hpath, hqs]
    rfl
  refine .matched (h.head_mem _ hr) ?_ ?_ fun q' d hqd => ?_
  · rw [hpath]
    exact List.length_pos_iff.2 (h.rule _ hr).right_ne_nil
  · rw [hpath]
    exact Coord.consecutive_singleton c
  · rw [hmatched, hpath] at hqd
    simp only [List.zip_cons_cons, List.zip_nil_right, List.mem_singleton, Prod.mk.injEq] at hqd
    obtain ⟨rfl, rfl⟩ := hqd
    exact ⟨e', hin, fun _ => hbefore, hcomplete, hs.matches⟩

/-- A grounded edge is extended by a cell right after it that its next pattern matches. -/
theorem Grounded.extend {l d : Coord} (h : Grounded g s k chart l before e) {q : Category}
    (hs : (l, d) ∈ c.splits) (hr : e.rule ∈ g.rules) (hq : e.next? = some q)
    (hm : chart.matchesAt g q d) (before' : List Edge) :
    Grounded g s k chart c before' ⟨e.rule, e.backpath ++ [d]⟩ := by
  obtain ⟨hspanl, hspand⟩ := Coord.span_lt_of_mem_splits hs
  obtain ⟨hstart, hnext, hstop⟩ := Coord.mem_splits.1 hs
  cases h with
  | offered => cases hq
  | matched hhead hle hcs hcarry =>
    have hlt : e.backpath.length < e.rule.right.length := by
      rw [Edge.next?_eq] at hq
      exact (List.getElem?_eq_some_iff.1 hq).1
    have htail : q ∈ e.rule.right.tail := by
      have hpos := List.length_pos_iff.2 (hcs.ne_nil l.start_lt_stop)
      rw [Edge.next?_eq, ← Nat.sub_add_cancel hpos, ← List.getElem?_tail] at hq
      exact List.mem_of_getElem? hq
    refine .matched hhead ?_ ?_ fun q' d' hqd => ?_
    · rw [List.length_append, List.length_singleton]
      exact hlt
    · rw [← hstart, ← hstop]
      refine Coord.consecutive_append.2 ⟨l.stop, hcs, ?_⟩
      rw [← hnext]
      exact Coord.consecutive_singleton d
    · rw [Edge.matched_append hq, List.zip_append (Edge.length_matched hle),
        List.mem_append] at hqd
      rcases hqd with hqd | hqd
      · -- The cells matched before lie in the left cell, which is shorter than the new one.
        obtain ⟨hlo, hhi⟩ := hcs.bounds (List.of_mem_zip hqd).2
        obtain ⟨e', he', -, hrest⟩ := hcarry q' d' hqd
        refine ⟨e', he', fun hd => ?_, hrest⟩
        subst hd
        simp only [Coord.stop] at *
        omega
      · simp only [List.zip_cons_cons, List.zip_nil_right, List.mem_singleton,
          Prod.mk.injEq] at hqd
        obtain ⟨rfl, rfl⟩ := hqd
        obtain ⟨e', he', hcomplete, ha⟩ := matchesAt_iff.1 hm
        exact ⟨e', he', fun hd => absurd hspand (hd ▸ lt_irrefl _), hcomplete,
          .inr ⟨ha, .inr ⟨e.rule, hr, htail⟩⟩⟩

/-- Every edge of a filled chart is grounded. -/
theorem grounded_of_cell_fill (h : g.WellFormed) (c : Coord) (hc : c.within s.size)
    {before after : List Edge} {e : Edge}
    (he : ((load g s k).fill g).cell c = before ++ e :: after) :
    Grounded g s k ((load g s k).fill g) c before e := by
  -- Induction on the span of the cell, as the edges that are extended come from shorter cells.
  rcases enters_or_opens h hc he with hin | ⟨e', he', ho⟩
  · cases hin with
    | offered hspan hx => exact .offered hspan hx
    | @extended l d e' q hs he' hq hm =>
      have hspan := (Coord.span_lt_of_mem_splits hs).1
      obtain ⟨before', after', hcell⟩ := List.append_of_mem he'
      have hl := (Coord.within_of_mem_splits hs hc).1
      have hr := ((sound_of_mem_cell_fill h hl he').rule_of_next? hq).mem_rules rfl
      exact (grounded_of_cell_fill h l hl hcell).extend hs hr hq hm before
  · have hmem : e' ∈ ((load g s k).fill g).cell c := he ▸ List.mem_append_left _ he'
    exact grounded_of_opens h hmem he' ho
termination_by c.span

theorem grounded_of_addedRoot? (h : g.Loaded) (he : chart.addedRoot? g = some e) :
    Grounded g s k (chart.fill g) chart.top ((chart.fill g).cell chart.top) e := by
  obtain ⟨hsize, -, cs, xs, hcover, hheads, rfl⟩ := addedRoot?_eq_some he
  have hcs := (consecutive_of_cover (Nat.zero_le _) hcover).1
  have hlength : cs.length = xs.length := hheads.length_eq
  refine .matched h.start_mem hlength.le ?_ fun q d hqd => ?_
  · rw [start_top, stop_top hsize]
    exact hcs
  · have hflip : List.Forall₂ (fun x c =>
        ∃ e, g.best? ((chart.fill g).complete c) = some e ∧ e.head = x) xs cs := hheads.flip
    rw [Edge.matched, hlength, List.take_length] at hqd
    obtain ⟨e, he, rfl⟩ := List.forall₂_zip hflip hqd
    obtain ⟨hmem, hcomplete⟩ := List.mem_filter.1 (RuleSet.mem_of_bestOn he)
    exact ⟨e, hmem, fun hd => hd ▸ hmem, hcomplete, .inl rfl⟩

/-- Every edge of a parsed chart is grounded. -/
theorem grounded_of_cell_parse (h : g.Loaded) (hc : c.within s.size) {after : List Edge}
    (he : (parsed g s k).cell c = before ++ e :: after) :
    Grounded g s k (parsed g s k) c before e := by
  have hsub (d : Coord) (hstop : d.stop ≤ c.stop) :
      ((load g s k).fill g).cell d ⊆ (parsed g s k).cell d :=
    cell_fill_subset_cell_parse (isFull_load g s k) (Coord.within_of_stop_le hc hstop)
  rcases cell_parse_cases (isFull_load g s k) hc he with ⟨after', hfill⟩ | ⟨rfl, hadded, rfl⟩
  · exact (grounded_of_cell_fill h.wellFormed c hc hfill).mono fun d _ hd => hsub d hd
  · exact (grounded_of_addedRoot? h hadded).mono fun d _ hd => hsub d hd

/-- A terminal is found in cells of one word only, and the word brings it. -/
theorem offers_of_terminal (h : g.Loaded) (hc : c.within s.size)
    (he : e ∈ (parsed g s k).cell c) (hx : e.head ∉ g.nonterminals) :
    c.span = 0 ∧ s.Offers k c.start e.head := by
  obtain ⟨before, after, hcell⟩ := List.append_of_mem he
  cases grounded_of_cell_parse h hc hcell with
  | offered hspan hoffer => exact ⟨hspan, hoffer⟩
  | matched hhead _ _ _ => exact absurd hhead hx

theorem span_eq_zero_of_terminal (h : g.Loaded) (hc : c.within s.size)
    (he : e ∈ (parsed g s k).cell c) (hx : e.head ∉ g.nonterminals) : c.span = 0 :=
  (offers_of_terminal h hc he hx).1

end Chart

end Chunker
