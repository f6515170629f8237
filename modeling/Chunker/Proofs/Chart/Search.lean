import Chunker.Proofs.Chart.Choice
import Chunker.Proofs.Chart.Derivation
import Mathlib.Logic.Relation

/-!
# When a search ends

The extraction of a tree from a cell is a recursion without a bound of its own: a category asks for
the patterns of its best edge, one after the other from the left, until one of them has no
derivation. Where rules of one pattern lead from a cell back to the same cell, only the choice of
the edges makes the recursion end.

The recursion is described here as it stands, with no bound on its depth. It ends if and only if no
category in a cell that it comes to asks, in one step or several, for itself; and the depth of a
search, one level for each edge of the chart and one for a leaf, is enough whenever it ends. In a
parsed chart the recursion goes to earlier places, with one exception: a rule whose only pattern is
a nonterminal with a wildcard may have been started by a word. Such a pattern is searched for like
any nonterminal, although what it has matched is a leaf, and the search may go around in a circle.

## Main definitions

* `Chart.Finds` : what the unbounded search for a category comes to.
* `Chart.Extracts` : what the unbounded extraction from a cell comes to.
* `Chart.Asks` : the categories and cells to which a search goes on.

## Main results

* `Chart.Finds.unique` : a search comes to one result.
* `Chart.finds_iff` : the bounded search finds what the unbounded one does.
* `Chart.exists_finds_iff` : the unbounded search ends unless it comes to a circle.
* `Chart.exists_extracts_iff` : when an extraction ends.
* `Chart.not_exists_extracts` : an extraction that does not.
-/

namespace Chunker

open Relation

namespace Chart

/-! ### The search without a bound -/

section Finds

variable {g : RuleSet} {chart : Chart} {c : Coord} {x : Category} {e : Edge}

/-- What the search for a category in a cell comes to if its depth is not bounded: a derivation, or
the first error. The patterns of an edge are searched for from left to right, up to the first
error. A search without an end comes to nothing. -/
inductive Finds (g : RuleSet) (chart : Chart) :
    Coord → Category → Except TreeError Derivation → Prop
  | leaf {c : Coord} {x : Category} (hstart : x ≠ g.start) (hx : x ∉ g.nonterminals) :
      Finds g chart c x (.ok (.leaf x))
  | missing {c : Coord} {x : Category} (hx : x = g.start ∨ x ∈ g.nonterminals)
      (he : chart.bestFor? g c x = none) : Finds g chart c x (.error (.noCompleteEdge x c))
  | made {c : Coord} {x : Category} {e : Edge} {part : Category × Coord → Derivation}
      (hx : x = g.start ∨ x ∈ g.nonterminals) (he : chart.bestFor? g c x = some e)
      (hparts : ∀ p ∈ e.matched.zip e.backpath, Finds g chart p.2 p.1 (.ok (part p))) :
      Finds g chart c x
        (.ok (.step x c e.rule.governor ((e.matched.zip e.backpath).map part)))
  | failed {c : Coord} {x : Category} {e : Edge} {part : Category × Coord → Derivation}
      {before after : List (Category × Coord)} {p : Category × Coord} {err : TreeError}
      (hx : x = g.start ∨ x ∈ g.nonterminals) (he : chart.bestFor? g c x = some e)
      (hzip : e.matched.zip e.backpath = before ++ p :: after)
      (hbefore : ∀ p' ∈ before, Finds g chart p'.2 p'.1 (.ok (part p')))
      (hp : Finds g chart p.2 p.1 (.error err)) : Finds g chart c x (.error err)

/-- A search comes to one result. -/
theorem Finds.unique {r r' : Except TreeError Derivation} (h : Finds g chart c x r)
    (h' : Finds g chart c x r') : r = r' := by
  induction h generalizing r' with
  | leaf hstart hx =>
    cases h' with
    | leaf => rfl
    | missing hx' _ | made hx' _ _ | failed hx' _ _ _ _ => exact absurd hx' (not_or.2 ⟨hstart, hx⟩)
  | missing hx he =>
    cases h' with
    | leaf hstart hx' => exact absurd hx (not_or.2 ⟨hstart, hx'⟩)
    | missing => rfl
    | made _ he' _ | failed _ he' _ _ _ => cases he.symm.trans he'
  | made hx he _ ih =>
    cases h' with
    | leaf hstart hx' => exact absurd hx (not_or.2 ⟨hstart, hx'⟩)
    | missing _ he' => cases he.symm.trans he'
    | made _ he' hparts' =>
      obtain rfl := Option.some.inj (he.symm.trans he')
      rw [List.map_congr_left fun p hp => Except.ok.inj (ih p hp (hparts' p hp))]
    | failed _ he' hzip' _ hp' =>
      obtain rfl := Option.some.inj (he.symm.trans he')
      cases ih _ (hzip' ▸ List.mem_append_right _ List.mem_cons_self) hp'
  | failed hx he hzip _ _ ihbefore ih =>
    cases h' with
    | leaf hstart hx' => exact absurd hx (not_or.2 ⟨hstart, hx'⟩)
    | missing _ he' => cases he.symm.trans he'
    | made _ he' hparts' =>
      obtain rfl := Option.some.inj (he.symm.trans he')
      cases ih (hparts' _ (hzip ▸ List.mem_append_right _ List.mem_cons_self))
    | failed _ he' hzip' hbefore' hp' =>
      obtain rfl := Option.some.inj (he.symm.trans he')
      -- Both searches stop at the first part that is not found.
      rcases mem_or_eq_or_mem_of_append_cons_eq (hzip.symm.trans hzip') with hin | rfl | hin
      · cases ihbefore _ hin hp'
      · exact ih hp'
      · cases ih (hbefore' _ hin)

/-! ### Circles -/

/-- The search for a category in a cell goes on to a pattern of the best edge in the cell that
matched it, once the patterns to the left of it are found. -/
inductive Asks (g : RuleSet) (chart : Chart) : Category × Coord → Category × Coord → Prop
  | part {c : Coord} {x : Category} {e : Edge} {part : Category × Coord → Derivation}
      {before after : List (Category × Coord)} {p : Category × Coord}
      (hx : x = g.start ∨ x ∈ g.nonterminals) (he : chart.bestFor? g c x = some e)
      (hzip : e.matched.zip e.backpath = before ++ p :: after)
      (hbefore : ∀ p' ∈ before, Finds g chart p'.2 p'.1 (.ok (part p'))) : Asks g chart (x, c) p

theorem Asks.first {p : Category × Coord} {after : List (Category × Coord)}
    (hx : x = g.start ∨ x ∈ g.nonterminals) (he : chart.bestFor? g c x = some e)
    (hzip : e.matched.zip e.backpath = p :: after) : Asks g chart (x, c) p :=
  @Asks.part g chart c x e (fun p => .leaf p.1) [] after p hx he hzip
    fun _ hp => absurd hp List.not_mem_nil

/-- Holds of a category and a cell from which the search comes to a circle. -/
def Circles (g : RuleSet) (chart : Chart) (v : Category × Coord) : Prop :=
  ∃ p, ReflTransGen (Asks g chart) v p ∧ TransGen (Asks g chart) p p

/-- A circle is come to from one of the categories to which a search goes on, or it leads back to
where the search started. -/
theorem Circles.exists_asks {v : Category × Coord} (h : Circles g chart v) :
    ∃ w, Asks g chart v w ∧ Circles g chart w := by
  obtain ⟨p, hp, hloop⟩ := h
  rcases hp.cases_head with rfl | ⟨w, hw, hwp⟩
  · obtain ⟨w, hw, hwv⟩ := TransGen.head'_iff.1 hloop
    exact ⟨w, hw, v, hwv, hloop⟩
  · exact ⟨w, hw, p, hwp, hloop⟩

theorem Finds.not_circles {r : Except TreeError Derivation} (h : Finds g chart c x r) :
    ¬ Circles g chart (x, c) := by
  induction h with
  | leaf hstart hx =>
    intro hcircles
    obtain ⟨w, ⟨hx', _, _, _⟩, -⟩ := hcircles.exists_asks
    exact absurd hx' (not_or.2 ⟨hstart, hx⟩)
  | missing hx he =>
    intro hcircles
    obtain ⟨w, ⟨_, he', _, _⟩, -⟩ := hcircles.exists_asks
    cases he.symm.trans he'
  | made hx he _ ih =>
    intro hcircles
    obtain ⟨w, ⟨_, he', hzip, _⟩, hw⟩ := hcircles.exists_asks
    obtain rfl := Option.some.inj (he.symm.trans he')
    exact ih w (hzip ▸ List.mem_append_right _ List.mem_cons_self) hw
  | failed hx he hzip _ hp ihbefore ih =>
    intro hcircles
    obtain ⟨w, ⟨_, he', hzip', hbefore'⟩, hw⟩ := hcircles.exists_asks
    obtain rfl := Option.some.inj (he.symm.trans he')
    rcases mem_or_eq_or_mem_of_append_cons_eq (hzip.symm.trans hzip') with hin | rfl | hin
    · exact ihbefore w hin hw
    · exact ih hw
    · cases hp.unique (hbefore' _ hin)

/-! ### The search with a bound -/

variable {n : Nat}

/-- The first fault of a category in a bounded search is that of its first part with a fault. -/
theorem firstFault?_deriveWithin_eq_some (hx : x = g.start ∨ x ∈ g.nonterminals)
    (he : chart.bestFor? g c x = some e) {err : TreeError} :
    (chart.deriveWithin g (n + 1) c x).firstFault? g = some err ↔
      ∃ before p after, e.matched.zip e.backpath = before ++ p :: after ∧
        (chart.deriveWithin g n p.2 p.1).firstFault? g = some err ∧
        ∀ p' ∈ before, (chart.deriveWithin g n p'.2 p'.1).firstFault? g = none := by
  rw [deriveWithin_of_eq_some hx he, Derivation.firstFault?_step, List.findSome?_map,
    List.findSome?_eq_some_iff]
  rfl

theorem finds_deriveWithin :
    ((chart.deriveWithin g n c x).firstFault? g = none →
        Finds g chart c x (.ok (chart.deriveWithin g n c x))) ∧
      ∀ err, (chart.deriveWithin g n c x).firstFault? g = some err →
        (∀ y d, err ≠ .endless y d) → Finds g chart c x (.error err) := by
  induction n generalizing c x with
  | zero => simp [deriveWithin]
  | succ n ih =>
    by_cases hx : x = g.start ∨ x ∈ g.nonterminals
    · cases he : chart.bestFor? g c x with
      | none =>
        rw [deriveWithin_of_eq_none hx he]
        simpa using Finds.missing hx he
      | some e =>
        constructor
        · intro hnone
          rw [deriveWithin_of_eq_some hx he] at hnone ⊢
          rw [Derivation.firstFault?_step, List.findSome?_map, List.findSome?_eq_none_iff] at hnone
          exact .made hx he fun p hp => ih.1 (hnone p hp)
        · intro err herr hend
          obtain ⟨before, p, after, hzip, hp, hbefore⟩ :=
            (firstFault?_deriveWithin_eq_some hx he).1 herr
          exact .failed hx he hzip (fun p' hp' => ih.1 (hbefore p' hp')) (ih.2 err hp hend)
    · obtain ⟨hstart, hx⟩ := not_or.1 hx
      rw [deriveWithin_of_leaf hstart hx]
      simpa using Finds.leaf hstart hx

/-- A bounded search that does not reach its bound finds what the unbounded one does. -/
theorem finds_checked
    (h : ∀ y d, (chart.deriveWithin g n c x).checked g ≠ .error (.endless y d)) :
    Finds g chart c x ((chart.deriveWithin g n c x).checked g) := by
  rw [Derivation.checked] at h ⊢
  cases hfault : (chart.deriveWithin g n c x).firstFault? g with
  | none => exact finds_deriveWithin.1 hfault
  | some err =>
    rw [hfault] at h
    exact finds_deriveWithin.2 err hfault fun y d heq => h y d (congrArg Except.error heq)

theorem Asks.exists_makes {v w : Category × Coord} (h : Asks g chart v w) :
    ∃ e ∈ chart.cell v.2, makes v.1 e := by
  obtain ⟨-, he, -, -⟩ := h
  obtain ⟨hmakes, before, after, hcell, -⟩ := exists_split_of_bestFor? he
  exact ⟨_, hcell ▸ List.mem_append_right _ List.mem_cons_self, hmakes⟩

end Finds

/-! ### The search in a parsed chart -/

section Parsed

variable {g : RuleSet} {s : Sentence} {k : Nat} {c : Coord} {x : Category}
  {v w : Category × Coord} (hg : g.Loaded)
  (htags : ∀ w ∈ s.words, ∀ a ∈ w.analyses k, a.tag ∉ g.nonterminals)

include hg htags

theorem Asks.between (h : Asks g (parsed g s k) v w) (hv : v.2.within s.size) :
    v.2.start ≤ w.2.start ∧ w.2.stop ≤ v.2.stop := by
  obtain ⟨hx, he, hzip, -⟩ := h
  have hx := hg.eq_start_or_mem_iff.1 hx
  obtain ⟨-, hcs, -⟩ := matched_of_bestFor? hg htags hv hx he
  have hw : w ∈ List.zip _ _ := hzip ▸ List.mem_append_right _ List.mem_cons_self
  exact hcs.bounds (List.of_mem_zip hw).2

/-- A search that reaches a bound above the number of edges has come to a circle. -/
theorem circles_of_endless {n : Nat} (hc : c.within s.size) {y : Category} {d : Coord}
    (h : ((parsed g s k).deriveWithin g n c x).firstFault? g = some (.endless y d))
    {vs : List (Category × Coord)} (hnodup : vs.Nodup)
    (hvs : ∀ v ∈ vs, v.2.within s.size ∧ TransGen (Asks g (parsed g s k)) v (x, c))
    (hlt : (parsed g s k).edgeCount < vs.length + n) : Circles g (parsed g s k) (x, c) := by
  induction n generalizing c x vs with
  | zero =>
    -- The categories on the way are all different, and there are more of them than edges.
    have hsize : (parsed g s k).size = s.size := size_parse g (load g s k)
    refine absurd (length_le_edgeCount (isFull_load g s k).parse hnodup fun v hv => ?_) hlt.not_ge
    obtain ⟨hin, hreach⟩ := hvs v hv
    obtain ⟨w, hw, -⟩ := TransGen.head'_iff.1 hreach
    exact ⟨hsize ▸ hin, hw.exists_makes⟩
  | succ n ih =>
    by_cases hx : x = g.start ∨ x ∈ g.nonterminals
    · cases he : (parsed g s k).bestFor? g c x with
      | none => simp [deriveWithin_of_eq_none hx he] at h
      | some e =>
        obtain ⟨before, p, after, hzip, hp, hbefore⟩ :=
          (firstFault?_deriveWithin_eq_some hx he).1 h
        have hasks : Asks g (parsed g s k) (x, c) p :=
          .part hx he hzip fun p' hp' => finds_deriveWithin.1 (hbefore p' hp')
        by_cases hmem : (x, c) ∈ vs
        · exact ⟨(x, c), .refl, (hvs _ hmem).2⟩
        · have hin : p.2.within s.size := by
            rw [Coord.within_iff_stop] at hc ⊢
            exact (hasks.between hg htags (Coord.within_iff_stop.2 hc)).2.trans hc
          have hrest := ih (x := p.1) hin hp (List.nodup_cons.2 ⟨hmem, hnodup⟩) ?_ ?_
          · obtain ⟨q, hq, hloop⟩ := hrest
            exact ⟨q, hq.head hasks, hloop⟩
          · rw [List.forall_mem_cons]
            exact ⟨⟨hc, .single hasks⟩, fun v hv => ⟨(hvs v hv).1, (hvs v hv).2.tail hasks⟩⟩
          · rw [List.length_cons]
            omega
    · obtain ⟨hstart, hx⟩ := not_or.1 hx
      simp [deriveWithin_of_leaf hstart hx] at h

theorem checked_derive_ne_endless (hc : c.within s.size)
    (h : ¬ Circles g (parsed g s k) (x, c)) (y : Category) (d : Coord) :
    ((parsed g s k).derive g c x).checked g ≠ .error (.endless y d) := by
  intro heq
  rw [Derivation.checked] at heq
  cases hfault : ((parsed g s k).derive g c x).firstFault? g with
  | none => simp [hfault] at heq
  | some err =>
    rw [hfault] at heq
    obtain rfl := Except.error.inj heq
    exact h (circles_of_endless hg htags hc hfault List.nodup_nil (by simp) (by simp))

/-- The search with the bound that extractions have finds what the unbounded one does, and reaches
the bound where the unbounded one finds nothing. -/
theorem finds_iff (hc : c.within s.size) {r : Except TreeError Derivation} :
    Finds g (parsed g s k) c x r ↔
      ((parsed g s k).derive g c x).checked g = r ∧ ∀ y d, r ≠ .error (.endless y d) := by
  constructor
  · intro h
    have hend := checked_derive_ne_endless hg htags hc h.not_circles
    obtain rfl := (finds_checked hend).unique h
    exact ⟨rfl, hend⟩
  · rintro ⟨rfl, hend⟩
    exact finds_checked hend

/-- The unbounded search comes to a result unless it comes to a circle. -/
theorem exists_finds_iff (hc : c.within s.size) :
    (∃ r, Finds g (parsed g s k) c x r) ↔ ¬ Circles g (parsed g s k) (x, c) := by
  constructor
  · rintro ⟨r, h⟩
    exact h.not_circles
  · exact fun h => ⟨_, finds_checked (checked_derive_ne_endless hg htags hc h)⟩

/-- Where no pattern of a rule on its own is a nonterminal with a wildcard that matches a word, a
search goes on to an earlier place, if it goes on from there. -/
theorem Asks.firstPlace_lt (hc : c.within s.size)
    (hwild : ∀ r ∈ g.rules, ∀ q ∈ g.nonterminals, Category.isWild q → r.right = [q] →
      ∀ j, c.start ≤ j → j < c.stop → ∀ y, s.Offers k j y → g.accepts q y = false)
    {u : Category × Coord} (h : Asks g (parsed g s k) v w) (hnext : Asks g (parsed g s k) w u)
    (hv : c.start ≤ v.2.start ∧ v.2.stop ≤ c.stop) :
    (parsed g s k).firstPlace w.2 w.1 < (parsed g s k).firstPlace v.2 v.1 := by
  have hin : v.2.within s.size := by
    rw [Coord.within_iff_stop] at hc ⊢
    exact hv.2.trans hc
  have hw : w.1 ∈ g.nonterminals := by
    obtain ⟨hx, -, -, -⟩ := hnext
    exact hg.eq_start_or_mem_iff.1 hx
  obtain ⟨hx, he, hzip, -⟩ := h
  have hx := hg.eq_start_or_mem_iff.1 hx
  have hmem : w ∈ List.zip _ _ := hzip ▸ List.mem_append_right _ List.mem_cons_self
  rcases firstPlace_lt_or_wild hg htags hin hx he hmem hnext.exists_makes with
    hlt | ⟨-, hr, hright, hq, y, hy, ha⟩
  · exact hlt
  · rw [hwild _ hr _ hw hq hright _ hv.1 ((Coord.start_lt_stop _).trans_le hv.2) y hy] at ha
    cases ha

theorem not_circles (hc : c.within s.size)
    (hwild : ∀ r ∈ g.rules, ∀ q ∈ g.nonterminals, Category.isWild q → r.right = [q] →
      ∀ j, c.start ≤ j → j < c.stop → ∀ y, s.Offers k j y → g.accepts q y = false) :
    ¬ Circles g (parsed g s k) (x, c) := by
  have hinside (u : Category × Coord) (h : ReflTransGen (Asks g (parsed g s k)) (x, c) u) :
      c.start ≤ u.2.start ∧ u.2.stop ≤ c.stop := by
    induction h with
    | refl => exact ⟨le_rfl, le_rfl⟩
    | tail _ hask ih =>
      have hin := Coord.within_of_stop_le hc ih.2
      obtain ⟨hlo, hhi⟩ := hask.between hg htags hin
      exact ⟨ih.1.trans hlo, hhi.trans ih.2⟩
  rintro ⟨p, hp, hloop⟩
  have hlt (w u : Category × Coord) (h : TransGen (Asks g (parsed g s k)) p w)
      (hnext : Asks g (parsed g s k) w u) :
      (parsed g s k).firstPlace w.2 w.1 < (parsed g s k).firstPlace p.2 p.1 := by
    induction h generalizing u with
    | single hask => exact hask.firstPlace_lt hg htags hc hwild hnext (hinside p hp)
    | tail hreach hask ih =>
      exact (hask.firstPlace_lt hg htags hc hwild hnext
        (hinside _ (hp.trans hreach.to_reflTransGen))).trans (ih _ hask)
  obtain ⟨u, hask, -⟩ := TransGen.head'_iff.1 hloop
  exact lt_irrefl _ (hlt p u hloop hask)

end Parsed

section Found

variable {g : RuleSet} {s : Sentence} {k : Nat} {c : Coord} {x : Category} {d : Derivation}

/-- The induction along a search in a parsed chart that finds a derivation. -/
theorem Finds.induction_ok (hg : g.Loaded)
    (htags : ∀ w ∈ s.words, ∀ a ∈ w.analyses k, a.tag ∉ g.nonterminals)
    {P : Coord → Category → Derivation → Prop}
    (leaf : ∀ {c x}, x ∉ g.nonterminals → P c x (.leaf x))
    (step : ∀ {c x e part}, c.within s.size → x ∈ g.nonterminals →
      (parsed g s k).bestFor? g c x = some e →
      (∀ p ∈ e.matched.zip e.backpath, P p.2 p.1 (part p)) →
      P c x (.step x c e.rule.governor ((e.matched.zip e.backpath).map part)))
    (hc : c.within s.size) (h : Finds g (parsed g s k) c x (.ok d)) : P c x d := by
  generalize hr : Except.ok d = r at h
  induction h generalizing d with
  | leaf _ hx =>
    cases hr
    exact leaf hx
  | missing => cases hr
  | failed => cases hr
  | made hx he _ ih =>
    cases hr
    have hx := hg.eq_start_or_mem_iff.1 hx
    obtain ⟨-, hcs, -⟩ := matched_of_bestFor? hg htags hc hx he
    exact step hc hx he fun p hp =>
      ih p hp (Coord.within_of_stop_le hc (hcs.bounds (List.of_mem_zip hp).2).2) rfl

theorem Finds.proper (hg : g.Loaded)
    (htags : ∀ w ∈ s.words, ∀ a ∈ w.analyses k, a.tag ∉ g.nonterminals)
    (hc : c.within s.size) (h : Finds g (parsed g s k) c x (.ok d)) : d.Proper g := by
  refine h.induction_ok hg htags (P := fun _ _ d => d.Proper g) .leaf ?_ hc
  intro c x e part hc hx he ih
  obtain ⟨hlength, hcs, -⟩ := matched_of_bestFor? hg htags hc hx he
  refine .step ?_ (List.forall_mem_map.2 ih)
  rw [← List.length_pos_iff, List.length_map, List.length_zip, hlength, Nat.min_self]
  exact List.length_pos_iff.2 (hcs.ne_nil c.start_lt_stop)

/-- A tree that is extracted is that of a derivation that is found for the label of its root. -/
theorem finds_of_extract {chart : Chart} {t : Tree} (h : (chart.extract g c).1 = .ok t) :
    Finds g chart c t.label (.ok (chart.derive g c t.label)) ∧
      (chart.derive g c t.label).tree g = t := by
  have hx := label_of_extract h
  rw [extract, hx] at h
  obtain ⟨hnone, htree⟩ := Derivation.outcome_eq_ok_iff.1 h
  exact ⟨finds_deriveWithin.1 hnone, htree⟩

end Found

/-! ### The extraction without a bound -/

/-- What the extraction of a tree from a cell comes to if the search for the derivation of its
visible category is not bounded. A cell has no visible category if its complete edges all
make categories that are left out of trees. -/
inductive Extracts (g : RuleSet) (chart : Chart) (c : Coord) : Except TreeError Tree → Prop
  | hidden (hx : chart.visibleHead? g c = none) : Extracts g chart c (.error (.noVisibleEdge c))
  | found {x : Category} {r : Except TreeError Derivation} (hx : chart.visibleHead? g c = some x)
      (hr : Finds g chart c x r) : Extracts g chart c (r.map (Derivation.tree g))

section Extracts

variable {g : RuleSet} {s : Sentence} {k : Nat} {c : Coord} (hg : g.Loaded)
  (htags : ∀ w ∈ s.words, ∀ a ∈ w.analyses k, a.tag ∉ g.nonterminals) (hc : c.within s.size)

include hg htags hc

/-- The extraction with a bound gives what the one without a bound comes to, and reports that it has
reached the bound where that one comes to nothing. -/
theorem extracts_iff {r : Except TreeError Tree} :
    Extracts g (parsed g s k) c r ↔
      ((parsed g s k).extract g c).1 = r ∧ ∀ y d, r ≠ .error (.endless y d) := by
  cases hx : (parsed g s k).visibleHead? g c with
  | none =>
    simp only [extract, hx]
    constructor
    · rintro (_ | ⟨hx', -⟩)
      · simp
      · cases hx.symm.trans hx'
    · rintro ⟨rfl, -⟩
      exact .hidden hx
  | some x =>
    simp only [extract, hx, Derivation.outcome_fst]
    constructor
    · rintro (hx' | ⟨hx', hr⟩)
      · cases hx.symm.trans hx'
      · obtain rfl := Option.some.inj (hx.symm.trans hx')
        obtain ⟨rfl, hend⟩ := (finds_iff hg htags hc).1 hr
        refine ⟨rfl, fun y d heq => ?_⟩
        cases hchecked : ((parsed g s k).derive g c x).checked g with
        | ok t => rw [hchecked] at heq; cases heq
        | error err =>
          rw [hchecked] at heq
          obtain rfl : err = .endless y d := Except.error.inj heq
          exact hend y d hchecked
    · rintro ⟨rfl, hend⟩
      refine .found hx (finds_checked fun y d heq => hend y d ?_)
      rw [derive, heq]
      rfl

theorem exists_extracts_iff_not_circles :
    (∃ r, Extracts g (parsed g s k) c r) ↔
      ∀ x, (parsed g s k).visibleHead? g c = some x → ¬ Circles g (parsed g s k) (x, c) := by
  constructor
  · rintro ⟨_, hx' | ⟨hx', hr⟩⟩ x hx
    · cases hx.symm.trans hx'
    · obtain rfl := Option.some.inj (hx.symm.trans hx')
      exact hr.not_circles
  · intro h
    cases hx : (parsed g s k).visibleHead? g c with
    | none => exact ⟨_, .hidden hx⟩
    | some x =>
      obtain ⟨r, hr⟩ := (exists_finds_iff hg htags hc).2 (h x hx)
      exact ⟨_, .found hx hr⟩

end Extracts

/-- When the extraction of a tree from a cell of a parsed chart ends. It comes to a tree or to an
error if and only if the search for the visible category of the cell comes to no circle, that is, to
no category in a cell whose search asks, in one step or several, for the same category in the same
cell. It always does so where no nonterminal with a wildcard, standing as the only pattern of a
rule, matches a category of a word of the cell. And whatever it comes to is what the extraction
with a bound gives, which reports in all other cases that it has reached the bound. -/
theorem exists_extracts_iff {g : RuleSet} {s : Sentence} {k : Nat} {c : Coord} (hg : g.Loaded)
    (htags : ∀ w ∈ s.words, ∀ a ∈ w.analyses k, a.tag ∉ g.nonterminals)
    (hc : c.within s.size) :
    let chart := ((load g s k).parse g).2
    ((∃ r, Extracts g chart c r) ↔
        ∀ x, chart.visibleHead? g c = some x → ¬ Circles g chart (x, c)) ∧
      ((∀ r ∈ g.rules, ∀ q ∈ g.nonterminals, Category.isWild q → r.right = [q] →
          ∀ j, c.start ≤ j → j < c.stop → ∀ y, s.Offers k j y → g.accepts q y = false) →
        ∃ r, Extracts g chart c r) ∧
      ∀ r, Extracts g chart c r ↔
        (chart.extract g c).1 = r ∧ ∀ y d, r ≠ .error (.endless y d) := by
  have hends := exists_extracts_iff_not_circles hg htags hc
  exact ⟨hends, fun hwild => hends.2 fun x _ => not_circles hg htags hc hwild,
    fun r => extracts_iff hg htags hc⟩

/-- Circular rules of one pattern, and a nonterminal with a wildcard that matches no word. -/
theorem exists_extracts_of_circular_rules :
    let g := RuleSet.ofText
      "a ==> +N* . b ==> +a . a ==> +b . V* ==> b, +VB . s ==> +V* . @START s ."
    let s : Sentence := ⟨"", [.tagged "dogs" "dog" "NNS", .tagged "bark" "bark" "VB"], []⟩
    g.Loaded ∧ (∀ w ∈ s.words, ∀ a ∈ w.analyses 0, a.tag ∉ g.nonterminals) ∧
      (⟨0, 0⟩ : Coord).within s.size ∧ ∃ r, Extracts g (parsed g s 0) ⟨0, 0⟩ r := by
  intro g s
  have hg : g.Loaded := RuleSet.loaded_ofText (by decide +kernel)
  have htags : ∀ w ∈ s.words, ∀ a ∈ w.analyses 0, a.tag ∉ g.nonterminals := by decide +kernel
  have hc : (⟨0, 0⟩ : Coord).within s.size := by decide
  have honly : ∀ r ∈ g.rules, ∀ q ∈ g.nonterminals, Category.isWild q → r.right = [q] →
      q = "V*" := by decide +kernel
  refine ⟨hg, htags, hc,
    (exists_extracts_iff hg htags hc).2.1 fun r hr q hq hwild hright j _ hj y hy => ?_⟩
  obtain rfl := honly r hr q hq hwild hright
  obtain rfl : j = 0 := by simpa [Coord.stop] using hj
  obtain ⟨w, hw, a, ha, hy⟩ := hy
  obtain rfl := Option.some.inj hw
  obtain rfl := List.mem_singleton.1 ha
  rcases hy with rfl | rfl | rfl <;> decide +kernel

/-- Two nonterminals that are made of each other, one of them with a wildcard that has matched the
word: the search for either asks for the other in the same cell. -/
theorem not_exists_extracts :
    let g := RuleSet.ofText "np ==> +N* . N* ==> +np . @START S ."
    let s : Sentence := ⟨"", [.tagged "cat" "cat" "NN"], []⟩
    g.Loaded ∧ (∀ w ∈ s.words, ∀ a ∈ w.analyses 0, a.tag ∉ g.nonterminals) ∧
      (⟨0, 0⟩ : Coord).within s.size ∧ ¬ ∃ r, Extracts g (parsed g s 0) ⟨0, 0⟩ r := by
  intro g s
  have hg : g.Loaded := RuleSet.loaded_ofText (by decide +kernel)
  have htags : ∀ w ∈ s.words, ∀ a ∈ w.analyses 0, a.tag ∉ g.nonterminals := by decide +kernel
  have hc : (⟨0, 0⟩ : Coord).within s.size := by decide
  have hx : (parsed g s 0).visibleHead? g ⟨0, 0⟩ = some "np" := by decide +kernel
  have hnp : (parsed g s 0).bestFor? g ⟨0, 0⟩ "np" =
      some ⟨⟨"np", ["N*"], some 0⟩, [⟨0, 0⟩]⟩ := by decide +kernel
  have hwild : (parsed g s 0).bestFor? g ⟨0, 0⟩ "N*" =
      some ⟨⟨"N*", ["np"], some 0⟩, [⟨0, 0⟩]⟩ := by decide +kernel
  have hasks : Asks g (parsed g s 0) ("np", ⟨0, 0⟩) ("N*", ⟨0, 0⟩) :=
    .first (.inr (by decide +kernel)) hnp rfl
  have hasks' : Asks g (parsed g s 0) ("N*", ⟨0, 0⟩) ("np", ⟨0, 0⟩) :=
    .first (.inr (by decide +kernel)) hwild rfl
  refine ⟨hg, htags, hc, fun hends => ?_⟩
  exact (exists_extracts_iff_not_circles hg htags hc).1 hends "np" hx
    ⟨_, .refl, (TransGen.single hasks).tail hasks'⟩

end Chart

end Chunker
