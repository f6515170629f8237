import Chunker.Proofs.Chart.Grounding
import Chunker.Proofs.Chart.Reuse

/-!
# What a cell may hold

In every chart that calls lead to, whether or not its parses succeeded, the edges of a cell are of
two kinds. Those with no matched pattern are the categories that the word of the cell brings. The
others have a cell of the chart for each matched pattern, with a complete edge that the pattern
accepts, and these cells are consecutive over the words of the edge's own cell. So a pattern is
matched by a cell as long as the edge's own only if no other pattern is matched.

The proof goes through the stages of a chart. A parsed chart holds grounded edges. A loaded chart
has the bottom row of the filled one, and nothing above it.

## Main definitions

* `Chart.Represented` : what holds of an edge and the cell where it stands.

## Main results

* `Chart.Grounded.represented` : grounded edges are of this kind.
* `Chart.represented_of_mem_cell_run` : so are all edges of a chart after several calls.
-/

namespace Chunker

theorem Edge.shiftAll_backpath {e : Edge} (h : e.backpath.length ≤ e.rule.right.length) :
    (Edge.mk e.rule []).shiftAll e.backpath = some e := by
  have hshift : ∃ e', (Edge.mk e.rule []).shiftAll e.backpath = some e' :=
    exists_shiftAll (by rwa [List.length_nil, Nat.zero_add])
  obtain ⟨e', he'⟩ := hshift
  rw [he', eq_of_shiftAll he', List.nil_append]

theorem Edge.mem_zip_backpath {e : Edge} {j : Nat} {q : Category} {d : Coord}
    (hq : e.rule.right[j]? = some q) (hd : e.backpath[j]? = some d) :
    (q, d) ∈ e.matched.zip e.backpath := by
  have hj := (List.getElem?_eq_some_iff.1 hd).1
  refine List.mem_of_getElem? (i := j) (List.getElem?_zip_eq_some.2 ⟨?_, hd⟩)
  rw [matched, List.getElem?_take_of_lt hj, hq]

namespace Chart

variable {g : RuleSet} {s : Sentence} {k : Nat} {chart : Chart} {c : Coord} {e : Edge}

/-- Holds of an edge and a cell of a chart over a tag sequence of a sentence, if the edge is a
category of the word of the cell, or has matched its patterns by cells of the chart. These follow
one another over the words of the cell, and each holds a complete edge that its pattern accepts. -/
structure Represented (g : RuleSet) (s : Sentence) (k : Nat) (chart : Chart) (c : Coord)
    (e : Edge) : Prop where
  shiftAll : (Edge.mk e.rule []).shiftAll e.backpath = some e
  length_backpath : e.backpath.length = e.matched.length
  length_le : e.backpath.length ≤ e.rule.right.length
  offered : e.matched = [] → e.rule.right = [] ∧ c.span = 0 ∧ s.Offers k c.start e.head
  within : ∀ d ∈ e.backpath, d.within chart.size
  consecutive : e.matched ≠ [] → Coord.Consecutive c.start c.stop e.backpath
  accepts : ∀ (j : Nat) (q : Category) (d : Coord), e.rule.right[j]? = some q →
    e.backpath[j]? = some d → ∃ e' ∈ chart.complete d, g.accepts q e'.head
  /-- One as long as the cell of the edge is the only one. -/
  alone : ∀ d ∈ e.backpath, d.span = c.span → e.backpath = [d]

/-- A grounded edge is one that its cell may hold. -/
theorem Grounded.represented {before : List Edge} (h : Grounded g s k chart c before e)
    (hc : c.within chart.size) : Represented g s k chart c e := by
  cases h with
  | offered hspan hx =>
    exact
      { shiftAll := rfl
        length_backpath := rfl
        length_le := le_rfl
        offered := fun _ => ⟨rfl, hspan, hx⟩
        within := fun d hd => absurd hd List.not_mem_nil
        consecutive := fun hne => absurd rfl hne
        accepts := fun j q d hq => by cases hq
        alone := fun d hd => absurd hd List.not_mem_nil }
  | matched hhead hle hcs hm =>
    have hlength := Edge.length_matched hle
    have hne : e.matched ≠ [] := fun hnil => by
      rw [hnil, List.length_nil, eq_comm, List.length_eq_zero_iff] at hlength
      exact hcs.ne_nil c.start_lt_stop hlength
    exact
      { shiftAll := Edge.shiftAll_backpath hle
        length_backpath := hlength.symm
        length_le := hle
        offered := fun hnil => absurd hnil hne
        within := fun d hd => Coord.within_of_stop_le hc (hcs.bounds hd).2
        consecutive := fun _ => hcs
        accepts := fun j q d hq hd => by
          obtain ⟨e', hmem, -, hcomplete, hmatches⟩ := hm q d (Edge.mem_zip_backpath hq hd)
          exact ⟨e', List.mem_filter.2 ⟨hmem, hcomplete⟩, hmatches.accepts⟩
        alone := fun d hd hspan => by
          have hpath := hcs.eq_singleton hd hspan.ge
          rw [hpath, List.mem_singleton] at hd
          rw [hpath, hd] }

theorem grounded_of_cell_load (h : g.WellFormed) (hc : c.within s.size) {before after : List Edge}
    (he : (load g s k).cell c = before ++ e :: after) :
    Grounded g s k (load g s k) c before e := by
  have hspan : c.span = 0 := by
    by_contra hpos
    rw [cell_load_of_span_pos hc (Nat.pos_of_ne_zero hpos)] at he
    exact absurd he.symm (List.append_ne_nil_of_right_ne_nil _ (List.cons_ne_nil e after))
  have hrow {d : Coord} (hd : d.within s.size) (hdspan : d.span = 0) :
      ((load g s k).fill g).cell d = (load g s k).cell d :=
    cell_fill_of_span_eq_zero hd hdspan
  rw [← hrow hc hspan] at he
  refine (grounded_of_cell_fill h c hc he).mono fun d hlo hhi => ?_
  -- A cell that lies within the cell of a word is in the bottom row as well.
  have hdspan : d.span = 0 := by
    simp only [Coord.stop] at hhi
    omega
  rw [hrow (Coord.within_of_stop_le hc hhi) hdspan]
  exact List.Subset.refl _

/-- At every stage of a chart, its cells hold such edges only. -/
theorem Stage.represented {last : Option (Sentence × Nat)} (h : g.Loaded)
    (hstage : Stage g last chart) (hc : c.within chart.size) (he : e ∈ chart.cell c) :
    ∃ s k, last = some (s, k) ∧ chart.size = s.size ∧ Represented g s k chart c e := by
  obtain ⟨before, after, hcell⟩ := List.append_of_mem he
  cases hstage with
  | fresh => exact absurd (Coord.within_iff.1 hc).1 (Nat.not_lt_zero _)
  | loaded s k =>
    exact ⟨s, k, rfl, rfl, (grounded_of_cell_load h.wellFormed hc hcell).represented hc⟩
  | parsed s k =>
    have hsize : (Chart.parsed g s k).size = s.size := size_parse g _
    exact ⟨s, k, rfl, hsize, (grounded_of_cell_parse h (hsize ▸ hc) hcell).represented hc⟩

/-- After any calls, whether or not they succeeded, the cells of a chart hold only edges that are
categories of the words loaded last, or that have matched their patterns by consecutive cells with
complete edges. -/
theorem represented_of_mem_cell_run (h : g.Loaded) (calls : List Call)
    (hc : c.within (run g {} calls).size) (he : e ∈ (run g {} calls).cell c) :
    ∃ s k, lastLoaded? calls = some (s, k) ∧ (run g {} calls).size = s.size ∧
      Represented g s k (run g {} calls) c e :=
  (stage_run h.wellFormed calls).represented h hc he

/-- A chart on which a parse has failed is loaded with another sentence and parsed twice. The root
that is added is matched by the cell in which it stands. -/
theorem represented_of_mem_cell_run_after_failure :
    let g := RuleSet.ofText "a ==> DT, +NN . @NOTOP a . @START S ."
    let s : Sentence := ⟨"", [.tagged "the" "the" "DT", .tagged "cat" "cat" "NN"], []⟩
    let s' : Sentence := ⟨"", [.tagged "dogs" "dog" "NNS", ⟨"x", [[]]⟩], []⟩
    let calls : List Call := [.load s' 0, .parse, .load s 0, .parse, .parse]
    let e : Edge := ⟨⟨"S", ["a"], none⟩, [⟨1, 0⟩]⟩
    g.Loaded ∧ (⟨1, 0⟩ : Coord).within (run g {} calls).size ∧ e ∈ (run g {} calls).cell ⟨1, 0⟩ ∧
      Coord.Consecutive 0 2 e.backpath ∧
      ∃ e' ∈ (run g {} calls).complete ⟨1, 0⟩, g.accepts "a" e'.head := by
  intro g s s' calls e
  have hg : g.Loaded := RuleSet.loaded_ofText (by decide +kernel)
  have hc : (⟨1, 0⟩ : Coord).within (run g {} calls).size := by decide +kernel
  have he : e ∈ (run g {} calls).cell ⟨1, 0⟩ := by decide +kernel
  obtain ⟨_, _, -, -, hrep⟩ := represented_of_mem_cell_run hg calls hc he
  have hmatched : e.matched ≠ [] := List.cons_ne_nil "a" []
  exact ⟨hg, hc, he, hrep.consecutive hmatched, hrep.accepts 0 "a" ⟨1, 0⟩ rfl rfl⟩

end Chart

end Chunker
