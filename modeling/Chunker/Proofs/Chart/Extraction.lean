import Chunker.Proofs.Chart.Choice
import Chunker.Proofs.Chart.Derivation

/-!
# Extraction of trees

The search for a derivation takes the best edge of a category in a cell, and goes on with the
patterns of that edge in the cells that matched them. Either these cells are shorter, or there is
one of them and it is the cell itself; then the edge is the first one of its category, and the
complete edge that carries it stands before it. So the search goes towards earlier places, and it
ends although rules of one pattern may lead around in circles.

The search ends in terminals. Their cells are consecutive over the words of the cell from which
the search started, so the leaves of the tree cover these words.

This is shown for rule sets in which no nonterminal has a wildcard, and for words that are not
tagged with nonterminals. With wildcards in the names of nonterminals, a pattern would not say
what it was matched by.

## Main definitions

* `Chart.leafCells` : the terminals in which a search ends, with their cells.
* `Chart.MadeFrom` : the categories that are met in a search.

## Main results

* `Chart.derive_induction` : the induction along a search.
* `Chart.exists_extract_eq_ok` : a cell with a visible edge has a tree whose leaves cover it.
-/

namespace Chunker

/-- What is assumed of a rule set and of the words of a tag sequence: the rule set is read from a
text, no nonterminal has a wildcard, and no tag is a nonterminal. -/
structure RuleSet.Fits (g : RuleSet) (s : Sentence) (k : Nat) : Prop where
  loaded : g.Loaded
  plain : ∀ x ∈ g.nonterminals, Category.isWild x = false
  tags : ∀ w ∈ s.words, ∀ a ∈ w.analyses k, a.tag ∉ g.nonterminals

/-- Holds of a rule set in which no wildcard after the first pattern of a rule matches a
nonterminal. -/
def RuleSet.WildcardsApart (g : RuleSet) : Prop :=
  ∀ r ∈ g.rules, ∀ q ∈ r.right.tail, Category.isWild q → ∀ x ∈ g.nonterminals,
    g.accepts q x = false

instance (g : RuleSet) : Decidable g.WildcardsApart :=
  inferInstanceAs (Decidable (∀ r ∈ g.rules, ∀ q ∈ r.right.tail, Category.isWild q →
    ∀ x ∈ g.nonterminals, g.accepts q x = false))

namespace Chart

/-- The terminals in which a search for a derivation ends, with their cells, up to a depth. -/
def leafCells (g : RuleSet) (chart : Chart) : Nat → Coord → Category → List (Category × Coord)
  | 0, _, _ => []
  | depth + 1, c, x =>
    if x != g.start && g.isTerminal x then [(x, c)]
    else
      match chart.bestFor? g c x with
      | none => []
      | some e =>
        (e.matched.zip e.backpath).flatMap fun (q, d) => leafCells g chart depth d q

/-- The categories that are met in a search, with their cells: the one of which the search is made,
and what is met in the searches for the patterns of its best edge. -/
inductive MadeFrom (g : RuleSet) (chart : Chart) : Coord → Category → Coord → Category → Prop
  | self (c : Coord) (x : Category) : MadeFrom g chart c x c x
  | part {c d d' : Coord} {x q y : Category} {e : Edge} (hx : x ∈ g.nonterminals)
      (he : chart.bestFor? g c x = some e) (hq : (q, d) ∈ e.matched.zip e.backpath)
      (h : MadeFrom g chart d q d' y) : MadeFrom g chart c x d' y

/-! ### Steps of a search -/

section Step

variable {g : RuleSet} {chart : Chart} {c : Coord} {x : Category}

theorem leafCells_terminal (hstart : x ≠ g.start) (hx : x ∉ g.nonterminals) (depth : Nat) :
    chart.leafCells g (depth + 1) c x = [(x, c)] := by
  rw [leafCells, if_pos (by simp [hstart, hx, RuleSet.isTerminal])]

theorem leafCells_nonterminal (hx : x ∈ g.nonterminals) {e : Edge}
    (he : chart.bestFor? g c x = some e) (depth : Nat) :
    chart.leafCells g (depth + 1) c x =
      (e.matched.zip e.backpath).flatMap fun (q, d) => chart.leafCells g depth d q := by
  rw [leafCells, if_neg (by simp [hx, RuleSet.isTerminal]), he]

end Step

/-! ### The search in a parsed chart -/

/-- What is known of the edge that is taken for a nonterminal in a search: its cells follow one
another over the words of the cell, each holds a complete edge that the pattern matches, and a
nonterminal is found in its cell at an earlier place. -/
structure Expands (g : RuleSet) (chart : Chart) (c : Coord) (x : Category) (e : Edge) : Prop where
  best : chart.bestFor? g c x = some e
  length : e.matched.length = e.backpath.length
  consecutive : Coord.Consecutive c.start c.stop e.backpath
  found : ∀ q d, (q, d) ∈ e.matched.zip e.backpath →
    ∃ e' ∈ chart.cell d, e'.isComplete ∧ g.Matches q e'.head
  earlier : ∀ q d, (q, d) ∈ e.matched.zip e.backpath → q ∈ g.nonterminals →
    chart.firstPlace d q < chart.firstPlace c x

theorem Expands.within {g : RuleSet} {chart : Chart} {c d : Coord} {x q : Category} {e : Edge}
    {n : Nat} (h : Expands g chart c x e) (hc : c.within n)
    (hqd : (q, d) ∈ e.matched.zip e.backpath) : d.within n := by
  rw [Coord.within_iff_stop] at hc ⊢
  exact (h.consecutive.bounds (List.of_mem_zip hqd).2).2.trans hc

section Search

variable {g : RuleSet} {s : Sentence} {k : Nat} {c : Coord} {x : Category}

/-- A nonterminal with a complete edge in a cell of a parsed chart has an edge that is taken for
it. -/
theorem exists_expands (hf : g.Fits s k) (hc : c.within s.size) (hx : x ∈ g.nonterminals)
    (hmade : ∃ e ∈ (parsed g s k).cell c, makes x e) : ∃ e, Expands g (parsed g s k) c x e := by
  obtain ⟨e, hbest⟩ := exists_bestFor? (g := g) hmade
  obtain ⟨hlength, hcs, hfound⟩ := matched_of_bestFor? hf.loaded hf.tags hc hx hbest
  refine ⟨e, hbest, hlength, hcs, hfound, fun q d hqd hq => ?_⟩
  obtain ⟨e', he', hcomplete, hm⟩ := hfound q d hqd
  obtain rfl := (RuleSet.accepts_iff_eq (hf.plain q hq)).1 hm.accepts
  rcases firstPlace_lt_or_wild hf.loaded hf.tags hc hx hbest hqd
    ⟨e', he', makes_iff.2 ⟨hcomplete, rfl⟩⟩ with hlt | ⟨-, -, -, hwild, -⟩
  · exact hlt
  · rw [hf.plain _ hq] at hwild
    cases hwild

/-- Holds of a category that is searched for in a cell with enough depth left: one level for a
leaf, and one more for each place up to the first of a nonterminal. -/
structure Ready (g : RuleSet) (chart : Chart) (depth : Nat) (c : Coord) (x : Category) :
    Prop where
  within : c.within chart.size
  found : ∃ e ∈ chart.cell c, e.isComplete ∧ g.accepts x e.head
  leaf : 1 ≤ depth
  deep : x ∈ g.nonterminals → chart.firstPlace c x + 2 ≤ depth

/-- The induction along a search in a parsed chart: a search ends in a terminal, or goes on with
the patterns of the edge that is taken. -/
theorem derive_induction (hf : g.Fits s k) {P : Nat → Coord → Category → Prop}
    (terminal : ∀ {depth c x}, x ∉ g.nonterminals → Ready g (parsed g s k) (depth + 1) c x →
      P (depth + 1) c x)
    (nonterminal : ∀ {depth c x e}, x ∈ g.nonterminals →
      Ready g (parsed g s k) (depth + 1) c x → Expands g (parsed g s k) c x e →
      (∀ q d, (q, d) ∈ e.matched.zip e.backpath → P depth d q) → P (depth + 1) c x)
    {depth : Nat} (h : Ready g (parsed g s k) depth c x) : P depth c x := by
  induction depth generalizing c x with
  | zero => exact absurd h.leaf (by decide)
  | succ depth ih =>
    by_cases hx : x ∈ g.nonterminals
    · have hsize : (parsed g s k).size = s.size := size_parse g (load g s k)
      have hmade : ∃ e ∈ (parsed g s k).cell c, makes x e := by
        obtain ⟨e, he, hcomplete, ha⟩ := h.found
        have hhead := (RuleSet.accepts_iff_eq (hf.plain x hx)).1 ha
        exact ⟨e, he, makes_iff.2 ⟨hcomplete, hhead.symm⟩⟩
      obtain ⟨e, he⟩ := exists_expands hf (hsize ▸ h.within) hx hmade
      refine nonterminal hx h he fun q d hqd =>
        ih ⟨he.within h.within hqd, ?_, ?_, fun hq => ?_⟩
      · obtain ⟨e', he', hcomplete, hm⟩ := he.found q d hqd
        exact ⟨e', he', hcomplete, hm.accepts⟩
      · have := h.deep hx
        omega
      · have := h.deep hx
        have := he.earlier q d hqd hq
        omega
    · exact terminal hx h

/-! ### What a search yields -/

variable {depth : Nat}

/-- A search in a parsed chart meets no fault and ends in terminals. -/
theorem proper_deriveWithin (hf : g.Fits s k) (h : Ready g (parsed g s k) depth c x) :
    ((parsed g s k).deriveWithin g depth c x).Proper g := by
  refine derive_induction hf (P := fun depth c x =>
    ((parsed g s k).deriveWithin g depth c x).Proper g) ?_ ?_ h
  · intro depth c x hx _
    rw [deriveWithin_of_leaf (hf.loaded.ne_start hx) hx]
    exact .leaf hx
  · intro depth c x e hx _ he ih
    rw [deriveWithin_of_eq_some (.inr hx) he.best]
    refine .step ?_ fun d hd => ?_
    · have hpos := List.length_pos_iff.2 (he.consecutive.ne_nil c.start_lt_stop)
      rw [← List.length_pos_iff, List.length_map, List.length_zip, he.length, Nat.min_self]
      exact hpos
    · obtain ⟨⟨q, d'⟩, hqd, rfl⟩ := List.mem_map.1 hd
      exact ih q d' hqd

theorem map_label_frontier_deriveWithin (hf : g.Fits s k)
    (h : Ready g (parsed g s k) depth c x) :
    (((parsed g s k).deriveWithin g depth c x).tree g).frontier.map Tree.label =
      ((parsed g s k).leafCells g depth c x).map Prod.fst := by
  refine derive_induction hf (P := fun depth c x =>
    (((parsed g s k).deriveWithin g depth c x).tree g).frontier.map Tree.label =
      ((parsed g s k).leafCells g depth c x).map Prod.fst) ?_ ?_ h
  · intro depth c x hx _
    have hstart := hf.loaded.ne_start hx
    rw [deriveWithin_of_leaf hstart hx, leafCells_terminal hstart hx, Derivation.tree,
      Tree.frontier_leaf]
    rfl
  · intro depth c x e hx hready he ih
    have hproper := proper_deriveWithin hf hready
    rw [deriveWithin_of_eq_some (.inr hx) he.best] at hproper ⊢
    rw [hproper.map_label_frontier_step hf.loaded.wellFormed,
      leafCells_nonterminal hx he.best, List.flatMap_map, List.map_flatMap]
    exact List.flatMap_congr fun p hp => ih p.1 p.2 hp

/-- The cells of the leaves cover the words of the cell from which the search starts. -/
theorem consecutive_leafCells (hf : g.Fits s k) (h : Ready g (parsed g s k) depth c x) :
    Coord.Consecutive c.start c.stop
      (((parsed g s k).leafCells g depth c x).map Prod.snd) := by
  refine derive_induction hf (P := fun depth c x => Coord.Consecutive c.start c.stop
    (((parsed g s k).leafCells g depth c x).map Prod.snd)) ?_ ?_ h
  · intro depth c x hx _
    rw [leafCells_terminal (hf.loaded.ne_start hx) hx]
    exact Coord.consecutive_singleton c
  · intro depth c x e hx _ he ih
    rw [leafCells_nonterminal hx he.best, List.map_flatMap]
    refine Coord.Consecutive.flatMap ?_ fun p hp => ih p.1 p.2 hp
    rw [List.map_snd_zip he.length.ge]
    exact he.consecutive

theorem mem_leafCells_iff (hf : g.Fits s k) (h : Ready g (parsed g s k) depth c x)
    {q : Category} {d : Coord} :
    (q, d) ∈ (parsed g s k).leafCells g depth c x ↔
      MadeFrom g (parsed g s k) c x d q ∧ q ∉ g.nonterminals := by
  refine derive_induction hf (P := fun depth c x =>
    (q, d) ∈ (parsed g s k).leafCells g depth c x ↔
      MadeFrom g (parsed g s k) c x d q ∧ q ∉ g.nonterminals) ?_ ?_ h
  · intro depth c x hx _
    rw [leafCells_terminal (hf.loaded.ne_start hx) hx, List.mem_singleton, Prod.mk.injEq]
    constructor
    · rintro ⟨rfl, rfl⟩
      exact ⟨.self d q, hx⟩
    · rintro ⟨hmade, -⟩
      cases hmade with
      | self => exact ⟨rfl, rfl⟩
      | part hx' => exact absurd hx' hx
  · intro depth c x e hx _ he ih
    rw [leafCells_nonterminal hx he.best, List.mem_flatMap]
    constructor
    · rintro ⟨⟨q', d'⟩, hqd, hmem⟩
      obtain ⟨hmade, hq⟩ := (ih q' d' hqd).1 hmem
      exact ⟨.part hx he.best hqd hmade, hq⟩
    · rintro ⟨hmade, hq⟩
      cases hmade with
      | self => exact absurd hx hq
      | @part _ d' _ _ q' _ e' _ he' hqd hmade =>
        obtain rfl := Option.some.inj (he.best.symm.trans he')
        exact ⟨(q', d'), hqd, (ih q' d' hqd).2 ⟨hmade, hq⟩⟩

/-- A complete edge of the cell of a leaf matches it, and the cell is as long as one word if the
leaf has no wildcard. -/
theorem found_of_mem_leafCells (hf : g.Fits s k) (h : Ready g (parsed g s k) depth c x)
    {q : Category} {d : Coord} (hqd : (q, d) ∈ (parsed g s k).leafCells g depth c x) :
    (∃ e ∈ (parsed g s k).complete d, g.accepts q e.head) ∧
      (Category.isWild q = false → d.span = 0) := by
  refine derive_induction hf (P := fun depth c x =>
    (q, d) ∈ (parsed g s k).leafCells g depth c x →
      (∃ e ∈ (parsed g s k).complete d, g.accepts q e.head) ∧
        (Category.isWild q = false → d.span = 0)) ?_ ?_ h hqd
  · intro depth c x hx hready hmem
    rw [leafCells_terminal (hf.loaded.ne_start hx) hx, List.mem_singleton, Prod.mk.injEq] at hmem
    obtain ⟨rfl, rfl⟩ := hmem
    obtain ⟨e, he, hcomplete, ha⟩ := hready.found
    refine ⟨⟨e, List.mem_filter.2 ⟨he, hcomplete⟩, ha⟩, fun hwild => ?_⟩
    obtain rfl := (RuleSet.accepts_iff_eq hwild).1 ha
    have hin := hready.within
    rw [size_parse] at hin
    exact span_eq_zero_of_terminal hf.loaded hin he hx
  · intro depth c x e hx _ he ih hmem
    rw [leafCells_nonterminal hx he.best, List.mem_flatMap] at hmem
    obtain ⟨⟨q', d'⟩, hqd', hmem⟩ := hmem
    exact ih q' d' hqd' hmem

/-- Where no wildcard of a rule matches a nonterminal, the cells of leaves with a wildcard are as
long as one word. -/
theorem span_eq_zero_of_mem_leafCells (hf : g.Fits s k) (hsep : g.WildcardsApart)
    (h : Ready g (parsed g s k) depth c x) (hx : Category.isWild x → c.span = 0) {q : Category}
    {d : Coord} (hqd : (q, d) ∈ (parsed g s k).leafCells g depth c x)
    (hq : Category.isWild q) : d.span = 0 := by
  refine derive_induction hf (P := fun depth c x => (Category.isWild x → c.span = 0) →
    (q, d) ∈ (parsed g s k).leafCells g depth c x → d.span = 0) ?_ ?_ h hx hqd
  · intro depth c x hx _ hspan hmem
    rw [leafCells_terminal (hf.loaded.ne_start hx) hx, List.mem_singleton, Prod.mk.injEq] at hmem
    obtain ⟨rfl, rfl⟩ := hmem
    exact hspan hq
  · intro depth c x e hx hready he ih _ hmem
    rw [leafCells_nonterminal hx he.best, List.mem_flatMap] at hmem
    obtain ⟨⟨q', d'⟩, hqd', hmem⟩ := hmem
    refine ih q' d' hqd' (fun hwild => ?_) hmem
    obtain ⟨e', he', -, hm⟩ := he.found q' d' hqd'
    have hin : d'.within s.size := by
      have hin := he.within hready.within hqd'
      rwa [size_parse] at hin
    refine span_eq_zero_of_terminal hf.loaded hin he' fun hmem' => ?_
    rcases hm with rfl | ⟨ha, hterminal | ⟨r, hr, htail⟩⟩
    · rw [hf.plain _ hmem'] at hwild
      cases hwild
    · exact RuleSet.isTerminal_iff.1 hterminal hmem'
    · rw [hsep r hr q' htail hwild _ hmem'] at ha
      cases ha

/-! ### Trees of cells -/

/-- The search for the visible category of a cell has enough depth. -/
theorem ready_of_visibleHead? (hc : c.within s.size)
    (hx : (parsed g s k).visibleHead? g c = some x) :
    Ready g (parsed g s k) ((parsed g s k).edgeCount + 1) c x := by
  obtain ⟨e, he, rfl⟩ := Option.map_eq_some_iff.1 hx
  obtain ⟨hmem, hcomplete⟩ :=
    List.mem_filter.1 (List.mem_filter.1 (RuleSet.mem_of_best? he)).1
  have hin : c.within (parsed g s k).size := by
    rw [size_parse]
    exact hc
  refine ⟨hin, ⟨e, hmem, hcomplete, g.accepts_self e.head⟩,
    Nat.le_add_left 1 _, fun _ => ?_⟩
  have hlt : (parsed g s k).firstPlace c e.head < (parsed g s k).edgeCount :=
    firstPlace_lt_edgeCount (isFull_load g s k).parse hin
      ⟨e, hmem, makes_iff.2 ⟨hcomplete, rfl⟩⟩
  omega

theorem extract_eq_ok (hf : g.Fits s k) (hc : c.within s.size)
    (hx : (parsed g s k).visibleHead? g c = some x) :
    ((parsed g s k).extract g c).1 = .ok (((parsed g s k).derive g c x).tree g) := by
  rw [extract, hx]
  exact (proper_deriveWithin hf (ready_of_visibleHead? hc hx)).outcome_eq

theorem exists_visibleHead? {chart : Chart}
    (h : ∃ e ∈ chart.complete c, e.head ∉ g.hidden) : ∃ x, chart.visibleHead? g c = some x := by
  obtain ⟨e, he, hhidden⟩ := h
  have hne : (chart.complete c).filter (fun e => !g.isHidden e.head) ≠ [] :=
    List.ne_nil_of_mem (List.mem_filter.2 ⟨he, by simpa [RuleSet.isHidden] using hhidden⟩)
  obtain ⟨e', he'⟩ := Option.ne_none_iff_exists'.1 (mt RuleSet.best?_eq_none_iff.1 hne)
  exact ⟨e'.head, by rw [visibleHead?, he', Option.map_some]⟩

private theorem forall₂_of_map_eq {α β γ : Type} {f : α → β} {R : β → γ → Prop} {xs : List α}
    {ps : List (β × γ)} (h : xs.map f = ps.map Prod.fst) (hR : ∀ p ∈ ps, R p.1 p.2) :
    List.Forall₂ (fun x y => R (f x) y) xs (ps.map Prod.snd) := by
  rw [← List.forall₂_map_left_iff, h, List.forall₂_map_left_iff, List.forall₂_map_right_iff,
    List.forall₂_same]
  exact hR

/-- Every cell of a parsed chart with a visible edge has a tree, also if rules of one pattern lead
around in circles. The leaves of the tree have cells that cover the words of the cell: each leaf
is matched by a complete edge of its cell, which is as long as one word unless the leaf has a
wildcard. -/
theorem exists_extract_eq_ok (hg : g.Loaded) (hplain : ∀ x ∈ g.nonterminals, '*' ∉ x.toList)
    (htags : ∀ w ∈ s.words, ∀ a ∈ w.analyses k, a.tag ∉ g.nonterminals)
    (hc : c.within s.size)
    (hvisible : ∃ e ∈ ((load g s k).parse g).2.complete c, e.head ∉ g.hidden) :
    ∃ t, (((load g s k).parse g).2.extract g c).1 = .ok t ∧
      ∃ cells, Coord.Consecutive c.start c.stop cells ∧
        List.Forall₂ (fun leaf d =>
          (∃ e ∈ ((load g s k).parse g).2.complete d, g.accepts leaf.label e.head) ∧
            ('*' ∉ leaf.label.toList → d.span = 0)) t.frontier cells := by
  have hf : g.Fits s k := ⟨hg, fun x hx => Category.isWild_eq_false_iff.2 (hplain x hx), htags⟩
  obtain ⟨x, hx⟩ := exists_visibleHead? hvisible
  have hready := ready_of_visibleHead? hc hx
  refine ⟨_, extract_eq_ok hf hc hx, _, consecutive_leafCells hf hready, ?_⟩
  refine forall₂_of_map_eq (R := fun q d =>
    (∃ e ∈ (parsed g s k).complete d, g.accepts q e.head) ∧ ('*' ∉ q.toList → d.span = 0))
    (map_label_frontier_deriveWithin hf hready) fun p hp => ?_
  obtain ⟨hfound, hspan⟩ := found_of_mem_leafCells hf hready hp
  exact ⟨hfound, fun hq => hspan (Category.isWild_eq_false_iff.2 hq)⟩

end Search

/-- Rules of one pattern that lead around in a circle, below a category over two words: the tree
goes around once, and each of its leaves has the cell of a word. -/
theorem exists_extract_of_circular_rules :
    let g := RuleSet.ofText "a ==> +N* . b ==> +a . a ==> +b . s ==> b, +VB* . @START s ."
    let s : Sentence := ⟨"", [.tagged "dogs" "dog" "NNS", .tagged "bark" "bark" "VBP"], []⟩
    let cells : List Coord := [⟨0, 0⟩, ⟨0, 1⟩]
    g.Loaded ∧ (∀ x ∈ g.nonterminals, '*' ∉ x.toList) ∧
      (∀ w ∈ s.words, ∀ a ∈ w.analyses 0, a.tag ∉ g.nonterminals) ∧
      (⟨1, 0⟩ : Coord).within s.size ∧
      (∃ e ∈ (parsed g s 0).complete ⟨1, 0⟩, e.head ∉ g.hidden) ∧
      ∃ t, ((parsed g s 0).extract g ⟨1, 0⟩).1 = .ok t ∧
        t.text = "s_[\n  b_[\n    +a_[\n      +N*\n    ]\n  ]\n  +VB*\n]" ∧
        Coord.Consecutive 0 2 cells ∧
          List.Forall₂ (fun leaf d =>
            (∃ e ∈ (parsed g s 0).complete d, g.accepts leaf.label e.head) ∧
              ('*' ∉ leaf.label.toList → d.span = 0)) t.frontier cells := by
  intro g s cells
  have hg : g.Loaded := RuleSet.loaded_ofText (by decide +kernel)
  have hplain : ∀ x ∈ g.nonterminals, '*' ∉ x.toList := by decide +kernel
  have htags : ∀ w ∈ s.words, ∀ a ∈ w.analyses 0, a.tag ∉ g.nonterminals := by decide +kernel
  have hc : (⟨1, 0⟩ : Coord).within s.size := by decide
  have hvisible : ∃ e ∈ (parsed g s 0).complete ⟨1, 0⟩, e.head ∉ g.hidden := by decide +kernel
  have hread : ((parsed g s 0).extract g ⟨1, 0⟩).1.toOption.map
      (fun t => (t.text, t.frontier.length)) =
        some ("s_[\n  b_[\n    +a_[\n      +N*\n    ]\n  ]\n  +VB*\n]", 2) := by
    decide +kernel
  obtain ⟨t, ht, ds, hds, hleaves⟩ := exists_extract_eq_ok hg hplain htags hc hvisible
  rw [ht] at hread
  obtain ⟨htext, hlength⟩ := Prod.mk.inj (Option.some.inj hread)
  -- Two consecutive cells over two words are the cells of the words.
  have hcells : ds = cells := by
    obtain ⟨⟨a, i⟩, ⟨b, j⟩, rfl⟩ := List.length_eq_two.1 (hleaves.length_eq ▸ hlength)
    simp only [Coord.Consecutive, Coord.stop] at hds
    simp only [cells, List.cons.injEq, Coord.mk.injEq, and_true]
    omega
  rw [hcells] at hds hleaves
  exact ⟨hg, hplain, htags, hc, hvisible, t, ht, htext, hds, hleaves⟩

end Chart

end Chunker
