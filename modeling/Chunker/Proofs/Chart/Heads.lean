import Chunker.Proofs.Chart.AddedRoot
import Chunker.Proofs.Chart.Search
import Chunker.Proofs.HeadWord

/-!
# Heads in extracted trees

In the tree of a cell every inner node has exactly one child that is marked as its head. A child
that is left out of the tree passes its own head on if it governs, and loses it otherwise, so the
number of heads is that of the governors of the rule, however deep categories are left out. Only
an added root has no governor, and its node no head; and such an edge is never taken below the
root of a tree, because a pattern for the start symbol over all words would have been made by an
edge that goes before the added one.

## Main definitions

* `Derivation.Governed` : a derivation all of whose rules have a governor.

## Main results

* `Derivation.Governed.all_hasOneHead` : the tree has one head at every inner node.
* `Chart.bestFor?_ne_addedRoot?` : an added root is not taken for a pattern of another edge.
* `Chart.heads_of_extract` : the heads of the tree of a cell, and its head words.
-/

namespace Chunker

/-! ### Derivations with governors -/

namespace Derivation

/-- Holds of a derivation without faults in which each category is made with one of its parts as the
governor. -/
inductive Governed (g : RuleSet) : Derivation → Prop
  | leaf {x : Category} (h : x ∉ g.nonterminals) : Governed g (.leaf x)
  | step {x : Category} {c : Coord} {i : Nat} {parts : List Derivation} (hi : i < parts.length)
      (h : ∀ d ∈ parts, Governed g d) : Governed g (.step x c (some i) parts)

variable {g : RuleSet} {d : Derivation} {ds : List Derivation} {parent : Category}
  {governs : Bool}

theorem Governed.proper (h : d.Governed g) : d.Proper g := by
  induction h with
  | leaf h => exact .leaf h
  | step hi _ ih => exact .step (List.ne_nil_of_length_pos (Nat.zero_lt_of_lt hi)) ih

/-- What stands for a child below its parent has one head if the child governs, and none
otherwise. -/
theorem heads_place (hg : g.WellFormed) (hd : d.Proper g) (hone : (d.tree g).HasOneHead) :
    Tree.heads (g.place parent governs (d.tree g)) = if governs then 1 else 0 := by
  rw [RuleSet.place]
  split
  · rename_i hout
    have hne : (d.tree g).children ≠ [] := fun hnil =>
      hd.not_mem_of_children_eq_nil hg hnil (hg.mem_of_leavesOut hout)
    cases governs
    · exact Tree.heads_map_markHead_false _
    · exact hone hne
  · rw [Tree.heads_cons]
    exact Nat.zero_add _

theorem heads_childrenFrom (hg : g.WellFormed) (hds : ∀ d ∈ ds, d.Proper g)
    (hone : ∀ d ∈ ds, (d.tree g).HasOneHead) (governor : Option Nat) (i : Nat) :
    Tree.heads (childrenFrom g parent governor i ds) =
      (List.range' i ds.length).countP fun j => governor == some j := by
  induction ds generalizing i with
  | nil => rw [childrenFrom]; rfl
  | cons d ds ih =>
    rw [List.forall_mem_cons] at hds hone
    rw [childrenFrom, Tree.heads_append, heads_place hg hds.1 hone.1, ih hds.2 hone.2,
      List.length_cons, List.range'_succ, List.countP_cons, Nat.add_comm]

/-- The tree of a derivation with governors has one head at every inner node. -/
theorem Governed.all_hasOneHead (hg : g.WellFormed) (h : d.Governed g) :
    Tree.All Tree.HasOneHead [d.tree g] := by
  induction h with
  | leaf =>
    rw [tree]
    exact Tree.all_singleton_iff.2 ⟨fun h => absurd rfl h, Tree.all_nil⟩
  | @step x c i parts hi hparts ih =>
    have hone : ∀ d ∈ parts, (d.tree g).HasOneHead := fun d hd =>
      (Tree.all_singleton_iff.1 (ih d hd)).1
    rw [tree]
    refine Tree.all_singleton_iff.2 ⟨fun _ => ?_, all_childrenFrom (fun _ _ h => h)
      (fun d hd => (Tree.all_singleton_iff.1 (ih d hd)).2) (fun d hd _ => hone d hd) _ _⟩
    rw [Tree.children, heads_childrenFrom hg (fun d hd => (hparts d hd).proper) hone]
    have hgoverns : (fun j => some i == some j) = fun j => j == i := by
      funext j
      rw [Bool.eq_iff_iff, beq_iff_eq, beq_iff_eq, Option.some.injEq, eq_comm]
    rw [hgoverns]
    exact List.count_eq_one_of_mem List.nodup_range' (List.mem_range'_1.2 (by omega))

/-- No notice is given for a category whose parts give none, if it has a head or needs none. -/
theorem notices_step_eq_nil {x : Category} {c : Coord} {governor : Option Nat}
    (hds : ∀ d ∈ ds, d.notices g = []) (h : hasHead g x governor ds ∨ x = g.start) :
    (step x c governor ds).notices g = [] := by
  have hparts : noticesOf g ds = [] := by
    clear h
    induction ds with
    | nil => rw [noticesOf]
    | cons d ds ih =>
      rw [List.forall_mem_cons] at hds
      rw [noticesOf, hds.1, ih hds.2, List.append_nil]
  rw [notices, hparts, if_pos (by simpa using h), List.append_nil]

theorem Governed.notices_eq_nil (hg : g.WellFormed) (h : d.Governed g) : d.notices g = [] := by
  induction h with
  | leaf => rw [notices]
  | @step x c i parts hi hparts ih =>
    refine notices_step_eq_nil ih (.inl ?_)
    have hne : g.place x true (parts[i].tree g) ≠ [] := hg.place_ne_nil
      ((hparts _ (List.getElem_mem hi)).proper.not_mem_of_children_eq_nil hg)
    simpa [hasHead, List.getElem?_eq_getElem hi] using hne

/-- A start symbol without a governor, made from derivations with governors, gives no notice. It has
no head, and the inner nodes below it have one each. -/
theorem heads_of_ungoverned_start (hg : g.WellFormed) (c : Coord)
    (hds : ∀ d ∈ ds, d.Governed g) :
    (step g.start c none ds).notices g = [] ∧
      Tree.heads ((step g.start c none ds).tree g).children = 0 ∧
      Tree.All Tree.HasOneHead ((step g.start c none ds).tree g).children := by
  have hone : ∀ d ∈ ds, (d.tree g).HasOneHead := fun d hd =>
    (Tree.all_singleton_iff.1 ((hds d hd).all_hasOneHead hg)).1
  refine ⟨notices_step_eq_nil (fun d hd => (hds d hd).notices_eq_nil hg) (.inr rfl), ?_, ?_⟩
  · rw [tree, Tree.children, heads_childrenFrom hg (fun d hd => (hds d hd).proper) hone,
      List.countP_eq_zero]
    simp
  · rw [tree]
    exact all_childrenFrom (fun _ _ h => h)
      (fun d hd => (Tree.all_singleton_iff.1 ((hds d hd).all_hasOneHead hg)).2)
      (fun d hd _ => hone d hd) _ _

theorem outcome_snd_eq_nil (h : d.notices g = []) : (d.outcome g).2 = [] := by
  rw [outcome, h]
  rfl

theorem isHead_root_tree (g : RuleSet) (d : Derivation) : (d.tree g).root.isHead = false := by
  cases d <;> simp [tree, Tree.root]

end Derivation

/-! ### The added root -/

namespace Chart

section AddedRoot

variable {g : RuleSet} {s : Sentence} {k : Nat} {c d : Coord} {x q : Category} {e r : Edge}

/-- If a complete edge lies over all words, an added root has matched it alone. -/
theorem backpath_of_addedRoot? {chart : Chart} (hr : chart.addedRoot? g = some r)
    (h : (chart.fill g).complete chart.top ≠ []) : r.backpath = [chart.top] := by
  obtain ⟨hsize, -, cs, xs, hcover, -, rfl⟩ := addedRoot?_eq_some hr
  have hcs := (consecutive_of_cover (Nat.zero_le _) hcover).1
  obtain ⟨d, left, right, hd, -, -, rfl⟩ := exists_of_cover_eq_ok (Nat.pos_of_ne_zero hsize) hcover
  obtain ⟨e, he⟩ := exists_foremost_of_highest? hd
  have hspan := he.highest chart.top ⟨le_rfl, (stop_top hsize).le⟩ h
  rw [← stop_top hsize] at hcs
  exact hcs.eq_singleton (List.mem_append_right _ List.mem_cons_self) hspan

variable (hg : g.Loaded) (htags : ∀ w ∈ s.words, ∀ a ∈ w.analyses k, a.tag ∉ g.nonterminals)
  (hc : c.within s.size)

include hg hc in
theorem eq_top_of_addedRoot? {before after : List Edge} (hr : (load g s k).addedRoot? g = some r)
    (hcell : (parsed g s k).cell c = before ++ r :: after) :
    c = (load g s k).top ∧ before = ((load g s k).fill g).cell c := by
  rcases cell_parse_cases (isFull_load g s k) hc hcell with ⟨after', hfill⟩ | ⟨htop, -, hbefore⟩
  · have hin : r ∈ ((load g s k).fill g).cell c :=
      hfill ▸ List.mem_append_right _ List.mem_cons_self
    exact absurd hr ((mem_cell_parse_iff hg.wellFormed hc).2 hin).2
  · exact ⟨htop, hbefore⟩

include hg htags hc in
/-- An added root is not taken for a pattern of another edge, nor for one of its own: such a pattern
would be the start symbol over all words, and an edge that makes it and has matched as much stands
before the added root. -/
theorem bestFor?_ne_addedRoot? (hr : (load g s k).addedRoot? g = some r) (hx : x ∈ g.nonterminals)
    (hbest : (parsed g s k).bestFor? g c x = some e) (hqd : (q, d) ∈ e.matched.zip e.backpath) :
    (parsed g s k).bestFor? g d q ≠ some r := by
  intro hq
  obtain ⟨hmakesr, beforer, afterr, hcellr, hfewer⟩ := exists_split_of_bestFor? hq
  obtain ⟨hmakes, before, after, hcell, -⟩ := exists_split_of_bestFor? hbest
  obtain ⟨-, rfl⟩ := makes_iff.1 hmakes
  obtain ⟨-, rfl⟩ := makes_iff.1 hmakesr
  obtain ⟨-, hcs, -⟩ := matched_of_bestFor? hg htags hc hx hbest
  have hd : d ∈ e.backpath := (List.of_mem_zip hqd).2
  have hdin := Coord.within_of_stop_le hc (hcs.bounds hd).2
  obtain ⟨rfl, rfl⟩ := eq_top_of_addedRoot? hg hdin hr hcellr
  have hsize : (load g s k).top.span = s.size - 1 := rfl
  rcases hcs.span_lt_or_eq_singleton hd with hspan | hpath
  · rw [Coord.within_iff] at hc
    omega
  -- The edge lies over all words as well, and an edge of the filled chart stands before it.
  obtain rfl : (load g s k).top = c := by simpa [hpath] using hd
  obtain ⟨-, q, hq, e', he', hcomplete, hcases⟩ :=
    exists_before_of_mem_backpath hg htags hc hcell hx hd
  have hin : e' ∈ (parsed g s k).cell (load g s k).top := hcell ▸ List.mem_append_left _ he'
  have hfill : e' ∈ ((load g s k).fill g).cell (load g s k).top := by
    rcases cell_parse_cases (isFull_load g s k) hc hcell with ⟨after', hfill⟩ | ⟨-, -, hbefore⟩
    · exact hfill ▸ List.mem_append_left _ he'
    · exact hbefore ▸ he'
  obtain rfl : r.head = q := by simpa [hq, hpath] using hqd
  rcases hcases with hhead | ⟨-, hterminal, -, -⟩
  · have hrpath := backpath_of_addedRoot? hr
      (List.ne_nil_of_mem (List.mem_filter.2 ⟨hfill, hcomplete⟩))
    have hlt := hfewer e' hfill (makes_iff.2 ⟨hcomplete, hhead⟩)
    have hle : r.matched.length ≤ 1 := by
      rw [Edge.matched, hrpath]
      exact List.length_take_le 1 _
    have hmem : e'.head ∈ g.nonterminals := by
      rw [hhead, head_of_addedRoot? hr]
      exact hg.start_mem
    have hpos := List.length_pos_iff.2 (matched_ne_nil hg htags hc hin hmem)
    omega
  · have hspan := (offers_of_terminal hg hc hin hterminal).1
    rw [Coord.within_iff] at hc
    rw [addedRoot?_eq_none_of_size_eq_one hg.wellFormed (by omega)] at hr
    cases hr

/-! ### Governors -/

variable {t : Derivation}

include hg htags hc in
/-- The edge that is taken for a nonterminal has a governor, unless it is an added root. -/
theorem exists_governor (hx : x ∈ g.nonterminals) (hbest : (parsed g s k).bestFor? g c x = some e)
    (hne : (load g s k).addedRoot? g ≠ some e) :
    ∃ i < (e.matched.zip e.backpath).length, e.rule.governor = some i := by
  obtain ⟨hmakes, before, after, hcell, -⟩ := exists_split_of_bestFor? hbest
  obtain ⟨hcomplete, rfl⟩ := makes_iff.1 hmakes
  obtain ⟨hlength, -, -⟩ := matched_of_bestFor? hg htags hc hx hbest
  have hin : e ∈ (parsed g s k).cell c := hcell ▸ List.mem_append_right _ List.mem_cons_self
  have hmatched := matched_ne_nil hg htags hc hin hx
  rcases sound_of_mem_cell_fill hg.wellFormed hc
    ((mem_cell_parse_iff hg.wellFormed hc).1 ⟨hin, hne⟩) with ⟨y, rfl, -⟩ | ⟨-, hr⟩
  · exact absurd rfl hmatched
  · obtain ⟨i, hi, hgovernor⟩ := (hg.wellFormed.rule _ (hr.mem_rules rfl)).governor
    refine ⟨i, ?_, hgovernor⟩
    rw [List.length_zip, ← hlength, Nat.min_self, Edge.matched,
      List.take_of_length_le (Edge.isComplete_iff.1 hcomplete)]
    exact hi

include hg htags hc in
theorem Finds.governed (h : Finds g (parsed g s k) c x (.ok t))
    (hne : ∀ r, (load g s k).addedRoot? g = some r → (parsed g s k).bestFor? g c x ≠ some r) :
    t.Governed g := by
  refine h.induction_ok hg htags (P := fun c x t =>
    (∀ r, (load g s k).addedRoot? g = some r → (parsed g s k).bestFor? g c x ≠ some r) →
      t.Governed g) (fun hx _ => .leaf hx) ?_ hc hne
  intro c x e part hc hx he ih hne
  obtain ⟨i, hi, hgovernor⟩ :=
    exists_governor hg htags hc hx he fun hadded => hne e hadded he
  rw [hgovernor]
  refine .step (by rwa [List.length_map]) (List.forall_mem_map.2 fun p hp => ih p hp ?_)
  exact fun r hr => bestFor?_ne_addedRoot? hg htags hc hr hx he hp

include hg htags hc in
theorem Finds.governed_parts (h : Finds g (parsed g s k) c x (.ok t))
    (hr : (load g s k).addedRoot? g = some r) (hbest : (parsed g s k).bestFor? g c x = some r) :
    ∃ parts, t = .step g.start c none parts ∧ ∀ d ∈ parts, d.Governed g := by
  obtain ⟨hmakes, -⟩ := exists_split_of_bestFor? hbest
  obtain rfl : g.start = x := (head_of_addedRoot? hr).symm.trans (makes_iff.1 hmakes).2
  cases h with
  | leaf hstart => exact absurd rfl hstart
  | made _ he hparts =>
    obtain rfl := Option.some.inj (hbest.symm.trans he)
    obtain ⟨-, hcs, -⟩ := matched_of_bestFor? hg htags hc hg.start_mem hbest
    obtain ⟨-, -, cs, xs, -, -, rfl⟩ := addedRoot?_eq_some hr
    refine ⟨_, rfl, List.forall_mem_map.2 fun p hp => (hparts p hp).governed hg htags ?_ ?_⟩
    · exact Coord.within_of_stop_le hc (hcs.bounds (List.of_mem_zip hp).2).2
    · exact fun r' hr' => bestFor?_ne_addedRoot? hg htags hc hr' hg.start_mem hbest hp

include hg htags hc in
/-- The heads of the tree of a derivation that is found. No notice is given, and every inner node
below the root has one head. The root has none if the edge that is taken for it is an added root,
and then it is the start symbol, and otherwise it has one as well. -/
theorem Finds.heads (h : Finds g (parsed g s k) c x (.ok t)) :
    t.notices g = [] ∧ Tree.All Tree.HasOneHead (t.tree g).children ∧
      ((∃ r, (load g s k).addedRoot? g = some r ∧ (parsed g s k).bestFor? g c x = some r) →
        t.label = g.start ∧ Tree.heads (t.tree g).children = 0) ∧
      ((∀ r, (load g s k).addedRoot? g = some r → (parsed g s k).bestFor? g c x ≠ some r) →
        (t.tree g).HasOneHead) := by
  by_cases hforced : ∃ r, (load g s k).addedRoot? g = some r ∧
    (parsed g s k).bestFor? g c x = some r
  · obtain ⟨r, hr, hbest⟩ := hforced
    obtain ⟨parts, rfl, hparts⟩ := h.governed_parts hg htags hc hr hbest
    obtain ⟨hnotices, hheads, hbelow⟩ :=
      Derivation.heads_of_ungoverned_start hg.wellFormed c hparts
    exact ⟨hnotices, hbelow, fun _ => ⟨rfl, hheads⟩, fun hne => absurd hbest (hne r hr)⟩
  · have hne : ∀ r, (load g s k).addedRoot? g = some r → (parsed g s k).bestFor? g c x ≠ some r :=
      fun r hr hbest => hforced ⟨r, hr, hbest⟩
    have hgoverned := h.governed hg htags hc hne
    obtain ⟨hone, hbelow⟩ := Tree.all_singleton_iff.1 (hgoverned.all_hasOneHead hg.wellFormed)
    exact ⟨hgoverned.notices_eq_nil hg.wellFormed, hbelow, fun h => absurd h hforced, fun _ => hone⟩

end AddedRoot

/-! ### Trees of cells -/

/-- The heads of a tree that is extracted from a cell of a parsed chart. The root is not marked, and
no warning is given. Every inner node has exactly one child that is marked as its head, except that
the root has none if the edge taken for it is the added root, which makes the start symbol. So once
the leaves are bound to words, whatever else happens to the labels and identifiers, the head word of
every subtree, other than the whole tree in the exceptional case, is the word of one of its
leaves. -/
theorem heads_of_extract {g : RuleSet} {s : Sentence} {k : Nat} {c : Coord} {t : Tree}
    (hg : g.Loaded) (htags : ∀ w ∈ s.words, ∀ a ∈ w.analyses k, a.tag ∉ g.nonterminals)
    (hc : c.within s.size) (h : (((load g s k).parse g).2.extract g c).1 = .ok t) :
    let chart := ((load g s k).parse g).2
    let forced := ∃ e, (load g s k).addedRoot? g = some e ∧ chart.bestFor? g c t.label = some e
    t.root.isHead = false ∧ (chart.extract g c).2 = [] ∧
      (forced → t.label = g.start ∧ Tree.heads t.children = 0) ∧
      (¬ forced → t.children ≠ [] → Tree.heads t.children = 1) ∧
      (∀ u ∈ Tree.subtreesOf t.children, u.children ≠ [] → Tree.heads u.children = 1) ∧
      ∀ t' : Tree, t'.marks = t.marks →
        (∀ leaf ∈ t'.frontier, ∃ w, leaf.root.word = some w) →
        ∀ u ∈ t'.subtrees, (forced → u ∈ Tree.subtreesOf t'.children) →
          ∃ leaf ∈ u.frontier, ∃ w, leaf.root.word = some w ∧ u.headWord = some w := by
  intro chart forced
  obtain ⟨hfound, htree⟩ := finds_of_extract h
  obtain ⟨hnotices, hbelow, hroot, hone⟩ := hfound.heads hg htags hc
  rw [htree] at hbelow hroot hone
  have hone : ¬ forced → t.HasOneHead := fun hn => hone fun r hr hbest => hn ⟨r, hr, hbest⟩
  refine ⟨?_, ?_, fun hforced => ?_, hone, hbelow, fun t' hmarks hwords u hu hun => ?_⟩
  · rw [← htree]
    exact Derivation.isHead_root_tree g _
  · rw [extract, label_of_extract h]
    exact Derivation.outcome_snd_eq_nil hnotices
  · obtain ⟨hlabel, hheads⟩ := hroot hforced
    rw [← hlabel, ← Derivation.label_tree g, htree]
    exact ⟨rfl, hheads⟩
  · by_cases hforced : forced
    · exact Tree.exists_headWord_of_marksOf_eq hbelow (Tree.marksOf_children_eq hmarks)
        (fun v hv => hwords v (Tree.frontierOf_children_subset t' hv)) (hun hforced)
    · refine @Tree.exists_headWord_of_marksOf_eq [t'] [t]
        (Tree.all_singleton_iff.2 ⟨hone hforced, hbelow⟩) ?_ (fun v hv => hwords v ?_) u ?_
      · rw [Tree.marksOf_singleton, Tree.marksOf_singleton, hmarks]
      · rwa [Tree.frontierOf_singleton] at hv
      · rwa [Tree.subtreesOf, Tree.subtreesOf, List.append_nil]

/-- A noun phrase whose hidden parts are nested, in a sentence that is bound to its words. -/
theorem heads_of_extract_nested_hidden :
    let g := RuleSet.ofText
      "s ==> np, +vp . np ==> DT, +n . n ==> JJ, +n . n ==> +N* . vp ==> +VB* . @HIDDEN n . @START s ."
    let s : Sentence := ⟨"1", [.tagged "The" "the" "DT", .tagged "black" "black" "JJ",
      .tagged "cat" "cat" "NN", .tagged "sleeps" "sleep" "VBZ"], []⟩
    g.Loaded ∧ (∀ w ∈ s.words, ∀ a ∈ w.analyses 0, a.tag ∉ g.nonterminals) ∧
      (⟨3, 0⟩ : Coord).within s.size ∧ ∃ t t', ((parsed g s 0).extract g ⟨3, 0⟩).1 = .ok t ∧
        s.bindTree 0 t = .ok t' ∧
        (∀ u ∈ Tree.subtreesOf t.children, u.children ≠ [] → Tree.heads u.children = 1) ∧
        ∀ u ∈ t'.subtrees, ∃ leaf ∈ u.frontier, ∃ w,
          leaf.root.word = some w ∧ u.headWord = some w := by
  intro g s
  have hg : g.Loaded := RuleSet.loaded_ofText (by decide +kernel)
  have htags : ∀ w ∈ s.words, ∀ a ∈ w.analyses 0, a.tag ∉ g.nonterminals := by decide +kernel
  have hc : (⟨3, 0⟩ : Coord).within s.size := by decide
  have hlength : ((parsed g s 0).extract g ⟨3, 0⟩).1.toOption.map (fun t => t.frontier.length) =
      some 4 := by decide +kernel
  have hadded : (load g s 0).addedRoot? g = none := by decide +kernel
  cases h : ((parsed g s 0).extract g ⟨3, 0⟩).1 with
  | error err =>
    rw [h] at hlength
    cases hlength
  | ok t =>
    rw [h] at hlength
    have hleaves : t.frontier.length = s.size := Option.some.inj hlength
    obtain ⟨t', hbind⟩ := (@Sentence.exists_bindTree_eq_ok_iff s t 0).2 hleaves
    obtain ⟨hmarks, hbound⟩ := Sentence.marks_of_bindTree hbind
    obtain ⟨-, -, -, -, hbelow, hwords⟩ := heads_of_extract hg htags hc h
    refine ⟨hg, htags, hc, t, t', rfl, hbind, hbelow, fun u hu => ?_⟩
    refine hwords t' hmarks hbound u hu fun ⟨e, he, _⟩ => ?_
    rw [hadded] at he
    cases he

end Chart

end Chunker
