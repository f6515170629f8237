import Chunker.Proofs.Chart.Derivation
import Chunker.Proofs.Chart.ForcedRoot
import Chunker.Proofs.Chart.Preference

/-!
# The choice of the root

Parsing looks for the best complete edge over all words that may stand at the top, and adds one if
there is none. The tree of the whole sentence is then read off the best edge that is not hidden.
The two choices agree if a root was added. Otherwise they differ exactly if an edge that may not
stand at the top is preferred to the edge that parsing found, or is as good and stands before it.

## Main definitions

* `Chart.visibleEdges` : the complete edges of a cell that are not left out of trees.

## Main results

* `Chart.root_choice` : when the two choices agree.
* `Chart.root_choice_differs` : a grammar for which they do not.
-/

namespace Chunker

namespace RuleSet

variable {g : RuleSet}

theorem best?_filter {es : List Edge} {e : Edge} (h : g.best? es = some e) {p : Edge → Bool}
    (hp : p e) : g.best? (es.filter p) = some e := by
  obtain ⟨before, after, rfl, hlt, hle⟩ := best?_eq_some_iff.1 h
  refine best?_eq_some_iff.2 ⟨before.filter p, after.filter p, ?_, ?_, ?_⟩
  · rw [List.filter_append, List.filter_cons_of_pos hp]
  · exact fun e' he' => hlt e' (List.mem_filter.1 he').1
  · exact fun e' he' => hle e' (List.mem_filter.1 he').1

end RuleSet

namespace Chart

variable {g : RuleSet} {s : Sentence} {k : Nat} {chart : Chart} {e : Edge}

/-- The complete edges of a cell that are not left out of trees. -/
def visibleEdges (g : RuleSet) (chart : Chart) (c : Coord) : List Edge :=
  (chart.complete c).filter fun e => !g.isHidden e.head

theorem mem_visibleEdges {c : Coord} :
    e ∈ chart.visibleEdges g c ↔ e ∈ chart.complete c ∧ e.head ∉ g.hidden := by
  simp [visibleEdges, RuleSet.isHidden]

theorem root?_eq : chart.root? g =
    g.best? ((chart.visibleEdges g chart.top).filter fun e => !g.isNeverTop e.head) := by
  rw [root?, visibleEdges, List.filter_filter]

theorem mem_of_root? (h : chart.root? g = some e) :
    e ∈ chart.visibleEdges g chart.top ∧ e.head ∉ g.neverTop := by
  rw [root?_eq] at h
  simpa [RuleSet.isNeverTop] using RuleSet.mem_of_best? h

theorem top_parse (g : RuleSet) (chart : Chart) : (chart.parse g).2.top = chart.top := by
  rw [top, top, size_parse]

/-- The visible edges of the top cell of a parsed chart are those of the filled chart, with the
added root behind them. -/
theorem visibleEdges_parse (hhidden : g.start ∉ g.hidden) (hf : chart.IsFull)
    (hsize : chart.size ≠ 0) :
    (chart.parse g).2.visibleEdges g chart.top =
      (chart.fill g).visibleEdges g chart.top ++ (chart.addedRoot? g).toList := by
  have hadded : ((chart.addedRoot? g).toList.filter Edge.isComplete).filter
      (fun e => !g.isHidden e.head) = (chart.addedRoot? g).toList := by
    cases hr : chart.addedRoot? g with
    | none => rfl
    | some r =>
      simp [isComplete_of_addedRoot? hr, head_of_addedRoot? hr, RuleSet.isHidden, hhidden]
  rw [visibleEdges, visibleEdges, complete, complete, Cell.complete, Cell.complete,
    cell_parse hf (within_top hsize), if_pos rfl, List.filter_append, List.filter_append, hadded]

/-- The top cell of a chart that is parsed has a visible edge unless the start symbol is hidden. -/
theorem visibleEdges_parse_ne_nil (hhidden : g.start ∉ g.hidden) (hf : chart.IsFull)
    (hok : (chart.parse g).1 = .ok ()) : (chart.parse g).2.visibleEdges g chart.top ≠ [] := by
  obtain ⟨hsize, hroot⟩ := parse_ok_iff.1 hok
  rw [visibleEdges_parse hhidden hf hsize]
  rcases hroot with hroot | hadded
  · obtain ⟨e, he⟩ := Option.isSome_iff_exists.1 hroot
    have hmem := (mem_of_root? he).1
    rw [top_fill] at hmem
    exact List.append_ne_nil_of_left_ne_nil (List.ne_nil_of_mem hmem) _
  · obtain ⟨e, he⟩ := Option.isSome_iff_exists.1 hadded
    rw [he, Option.toList_some]
    exact List.append_ne_nil_of_right_ne_nil _ (List.cons_ne_nil e [])

/-- A chart that is parsed has a root, which is the added edge if one was added. -/
theorem exists_root?_parse (hnever : g.start ∉ g.neverTop) (hhidden : g.start ∉ g.hidden)
    (hf : chart.IsFull) (hok : (chart.parse g).1 = .ok ()) :
    ∃ e, (chart.parse g).2.root? g = some e ∧ ∀ r, chart.addedRoot? g = some r → e = r := by
  have hsize := (parse_ok_iff.1 hok).1
  rw [root?_eq, top_parse, visibleEdges_parse hhidden hf hsize, List.filter_append,
    ← top_fill g chart]
  cases hfill : (chart.fill g).root? g with
  | some e =>
    have hadded : chart.addedRoot? g = none := addedRoot?_eq_none_of_root? hfill
    rw [root?_eq] at hfill
    rw [hadded, Option.toList_none, List.filter_nil, List.append_nil]
    exact ⟨e, hfill, fun r hr => by cases hr⟩
  | none =>
    obtain ⟨r, hr⟩ := exists_addedRoot?_eq_some hok hfill
    rw [root?_eq, RuleSet.best?_eq_none_iff] at hfill
    have hkeep : [r].filter (fun e => !g.isNeverTop e.head) = [r] := by
      simpa [RuleSet.isNeverTop, head_of_addedRoot? hr] using hnever
    rw [hfill, hr, Option.toList_some, List.nil_append, hkeep]
    exact ⟨r, rfl, fun r' hr' => Option.some.inj hr'⟩

theorem eq_of_root? {v : Edge} (he : chart.root? g = some e)
    (hv : g.best? (chart.visibleEdges g chart.top) = some v) (hkeep : v.head ∉ g.neverTop) :
    v = e := by
  rw [root?_eq, RuleSet.best?_filter hv (by simpa [RuleSet.isNeverTop] using hkeep)] at he
  exact Option.some.inj he

/-- The visible category of the top cell is that of the root if and only if no edge that may not
stand at the top is better. -/
theorem head_eq_iff_of_root? {v : Edge} (he : chart.root? g = some e)
    (hv : g.best? (chart.visibleEdges g chart.top) = some v) :
    v.head = e.head ↔ ∀ before e' after, chart.visibleEdges g chart.top = before ++ e' :: after →
      e'.head ∈ g.neverTop → ¬ g.prefers e' e ∧ (g.prefers e e' ∨ e ∈ before) := by
  obtain ⟨hmem, hnever⟩ := mem_of_root? he
  constructor
  · intro hhead before e' after hsplit he'
    -- The best visible edge may stand at the top, so it is the root.
    obtain rfl := eq_of_root? he hv (hhead ▸ hnever)
    obtain ⟨es, es', hes, hlt, hle⟩ := RuleSet.best?_eq_some_iff.1 hv
    have hmem' : e' ∈ chart.visibleEdges g chart.top :=
      hsplit ▸ List.mem_append_right _ List.mem_cons_self
    rw [RuleSet.prefers_iff_rank_lt, RuleSet.prefers_iff_rank_lt]
    refine ⟨(RuleSet.rank_le_of_best? hv hmem').not_gt, ?_⟩
    rw [hes] at hsplit
    rcases append_eq_append_cons hsplit with ⟨after', rfl⟩ | ⟨before', rfl, hrest⟩
    · exact .inl (hlt e' (List.mem_append_right _ List.mem_cons_self))
    · cases before' with
      | nil => exact absurd he' ((List.cons.inj hrest).1 ▸ hnever)
      | cons z zs =>
        obtain rfl := (List.cons.inj hrest).1
        exact .inr (List.mem_append_right _ List.mem_cons_self)
  · intro h
    by_contra hhead
    have hv' : v.head ∈ g.neverTop := by
      by_contra hkeep
      exact hhead (congrArg Edge.head (eq_of_root? he hv hkeep))
    obtain ⟨es, es', hes, hlt, -⟩ := RuleSet.best?_eq_some_iff.1 hv
    obtain ⟨hnot, hor⟩ := h es v es' hes hv'
    rw [RuleSet.prefers_iff_rank_lt] at hnot hor
    rcases hor with hlt' | hbefore
    · exact (RuleSet.rank_le_of_best? hv hmem).not_gt hlt'
    · exact hnot (hlt e hbefore)

theorem head_eq_of_start (hnever : g.start ∉ g.neverTop) {v r : Edge}
    (he : chart.root? g = some r) (hr : r.head = g.start)
    (hv : g.best? (chart.visibleEdges g chart.top) = some v) : v.head = r.head := by
  refine (head_eq_iff_of_root? he hv).2 fun before e' after _ he' => ?_
  have hlt : g.rank r < g.rank e' := RuleSet.rank_lt_of_start hr fun hhead => hnever (hhead ▸ he')
  rw [RuleSet.prefers_iff_rank_lt, RuleSet.prefers_iff_rank_lt]
  exact ⟨hlt.not_gt, .inl hlt⟩

/-- The root of the tree that is read off the top cell of a parsed chart, against the root that
parsing found: the tree is never headed by a hidden category; the two agree if a root was added;
and in general they agree if and only if no edge over all words that may not stand at the top is
preferred to the root, or is as good and stands before it. -/
theorem root_choice (hnever : g.start ∉ g.neverTop) (hhidden : g.start ∉ g.hidden)
    (hok : ((load g s k).parse g).1 = .ok ()) :
    ∃ e x, (parsed g s k).root? g = some e ∧
      (parsed g s k).visibleHead? g (parsed g s k).top = some x ∧
      (∀ t, ((parsed g s k).extract g (parsed g s k).top).1 = .ok t → t.label = x) ∧
      x ∉ g.hidden ∧ (x ∉ g.neverTop ↔ x = e.head) ∧
      (∀ r, (load g s k).addedRoot? g = some r → e = r ∧ x = g.start) ∧
      (x = e.head ↔ ∀ before e' after,
        (parsed g s k).visibleEdges g (parsed g s k).top = before ++ e' :: after →
          e'.head ∈ g.neverTop → ¬ g.prefers e' e ∧ (g.prefers e e' ∨ e ∈ before)) := by
  obtain ⟨e, he, hadded⟩ := exists_root?_parse hnever hhidden (isFull_load g s k) hok
  obtain ⟨hmem, hkeep⟩ := mem_of_root? he
  obtain ⟨v, hv⟩ := Option.ne_none_iff_exists'.1
    (mt RuleSet.best?_eq_none_iff.1 (List.ne_nil_of_mem hmem))
  have hx : (parsed g s k).visibleHead? g (parsed g s k).top = some v.head := by
    rw [visibleHead?, ← visibleEdges, hv, Option.map_some]
  refine ⟨e, v.head, he, hx, fun t ht => ?_, ?_, ⟨fun hnot => ?_, fun hhead => hhead ▸ hkeep⟩,
    fun r hr => ?_, head_eq_iff_of_root? he hv⟩
  · exact Option.some.inj ((label_of_extract ht).symm.trans hx)
  · exact (mem_visibleEdges.1 (RuleSet.mem_of_best? hv)).2
  · rw [eq_of_root? he hv hnot]
  · obtain rfl := hadded r hr
    have hstart := head_of_addedRoot? hr
    exact ⟨rfl, (head_eq_of_start hnever he hstart hv).trans hstart⟩

/-- A root added over two words, where the only rule makes a category that may not stand at the
top. -/
theorem root_choice_of_added_root :
    let g := RuleSet.ofText "a ==> DT, +NN . @NOTOP a . @START S ."
    let s : Sentence := ⟨"", [.tagged "the" "the" "DT", .tagged "cat" "cat" "NN"], []⟩
    g.start ∉ g.neverTop ∧ g.start ∉ g.hidden ∧ ((load g s 0).parse g).1 = .ok () ∧
      ∃ r, (load g s 0).addedRoot? g = some r ∧ (parsed g s 0).root? g = some r ∧
        (parsed g s 0).visibleHead? g (parsed g s 0).top = some "S" := by
  intro g s
  have hnever : g.start ∉ g.neverTop := by decide +kernel
  have hhidden : g.start ∉ g.hidden := by decide +kernel
  have hok : ((load g s 0).parse g).1 = .ok () := parse_ok_iff.2 (by decide +kernel)
  refine ⟨hnever, hhidden, hok, ⟨⟨"S", ["a"], none⟩, [⟨1, 0⟩]⟩, by decide +kernel, ?_⟩
  obtain ⟨e, x, he, hx, -, -, -, hadded, -⟩ := root_choice hnever hhidden hok
  obtain ⟨rfl, rfl⟩ := hadded ⟨⟨"S", ["a"], none⟩, [⟨1, 0⟩]⟩ (by decide +kernel)
  exact ⟨he, hx.trans (by decide +kernel)⟩

/-- Two categories over the same two words: parsing takes the one that may stand at the top, and
the tree is headed by the other one, which has the lower priority number. -/
theorem root_choice_differs :
    let g := RuleSet.ofText
      "a ==> DT, +NN . b ==> DT, +NN . @PRIOR a b . @NOTOP a . @START S ."
    let s : Sentence := ⟨"", [.tagged "the" "the" "DT", .tagged "cat" "cat" "NN"], []⟩
    g.Loaded ∧ g.start ∉ g.neverTop ∧ g.start ∉ g.hidden ∧
      ((load g s 0).parse g).1 = .ok () ∧
      ((parsed g s 0).root? g).map Edge.head = some "b" ∧
      (parsed g s 0).visibleHead? g (parsed g s 0).top = some "a" ∧
      (((parsed g s 0).extract g (parsed g s 0).top).1.toOption.map Tree.label = some "a") ∧
      "a" ∈ g.neverTop := by
  intro g s
  refine ⟨RuleSet.loaded_ofText (by decide +kernel), by decide +kernel, by decide +kernel,
    parse_ok_iff.2 (by decide +kernel), ?_, ?_, ?_, by decide +kernel⟩ <;> decide +kernel

end Chart

end Chunker
