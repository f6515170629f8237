import Chunker.Proofs.Chart.Gaps

/-!
# When a root is added

Where all words of a sentence have analyses, parsing adds an edge to the top cell if and only if
none of the complete edges there may stand at the top. The cells of this edge are the greedy
cover of all words: at each region the cover takes the longest cell with a complete edge, by the
preferred edge and from the left, and goes on with what lies on either side.

A sentence of one word never needs such an edge. Its cell holds the tag of the word together with
the form, and as names have no brackets, no directive can keep this category from the top.

## Main results

* `Chart.root?_eq_none_iff` : when there is no root.
* `Chart.addedRoot?_eq_none_of_size_eq_one` : nothing is added for a single word.
* `Chart.added_root_of_cover` : when a root is added, and what it is made of.
-/

namespace Chunker.Chart

variable {g : RuleSet} {s : Sentence} {k : Nat} {chart : Chart}

/-- There is no root if no complete edge over all words may stand at the top. -/
theorem root?_eq_none_iff :
    chart.root? g = none ↔
      ∀ e ∈ chart.complete chart.top, e.head ∈ g.neverTop ∨ e.head ∈ g.hidden := by
  simp only [root?, RuleSet.best?_eq_none_iff, List.filter_eq_nil_iff, RuleSet.isNeverTop,
    RuleSet.isHidden, Bool.and_eq_true, Bool.not_eq_true', decide_eq_false_iff_not, not_and_or,
    not_not]

/-! ### Sentences of one word -/

/-- The tag of a word with its form may stand at the top. -/
theorem root?_ne_none_of_size_eq_one (h : g.WellFormed) (hsize : s.size = 1)
    (ha : s.IsAnalysed k 0) : ((load g s k).fill g).root? g ≠ none := by
  obtain ⟨w, hw, hne⟩ := ha
  obtain ⟨a, as, has⟩ := List.exists_cons_of_ne_nil hne
  have hoffer : s.Offers k 0 (a.tag ++ "(" ++ w.lowerForm ++ ")") :=
    ⟨w, hw, a, has ▸ List.mem_cons_self, .inr (.inl rfl)⟩
  have hmem := mem_cell_of_enters (g := g) (k := k) (c := ⟨0, 0⟩)
    (Coord.within_iff_stop.2 hsize.ge) (.offered rfl hoffer)
  have htop : ((load g s k).fill g).top = ⟨0, 0⟩ := by
    rw [top_fill, top, size_load, hsize]
  have hterminal : a.tag ++ "(" ++ w.lowerForm ++ ")" ∉ g.nonterminals :=
    h.not_mem_nonterminals (b := '(') rfl (by simp)
  rw [Ne, root?_eq_none_iff, htop]
  intro hall
  rcases hall _ (List.mem_filter.2 ⟨hmem, Edge.isComplete_lexical _⟩) with hnever | hhidden
  · exact hterminal (h.neverTop hnever)
  · exact hterminal (h.hidden hhidden)

/-- Nothing is added to the top cell of a sentence of one word. -/
theorem addedRoot?_eq_none_of_size_eq_one (h : g.WellFormed) (hsize : s.size = 1) :
    (load g s k).addedRoot? g = none := by
  cases hadded : (load g s k).addedRoot? g with
  | none => rfl
  | some e =>
    have hroot := (addedRoot?_eq_some hadded).2.1
    have hok : ((load g s k).parse g).1 = .ok () := by
      rw [parse_ok_iff, hadded]
      exact ⟨(addedRoot?_eq_some hadded).1, .inr rfl⟩
    have ha := isAnalysed_of_parse_eq_ok h hok 0 (hsize ▸ Nat.zero_lt_one)
    exact absurd hroot (root?_ne_none_of_size_eq_one h hsize ha)

/-! ### The added edge -/

/-- When a root is added to a sentence whose words have analyses, and what it is made of. It is
added if and only if no complete edge over all words may stand at the top, which a sentence of one
word always has. It is the only edge that is added. It makes the start symbol without a governor
from the cover of all words, and its patterns are the categories of the best edges of the cover.
The cover of any region takes the foremost cell of the region, between the covers of what this
leaves on the left and on the right. -/
theorem added_root_of_cover (h : g.Loaded) (hne : s.words ≠ [])
    (hwords : ∀ w ∈ s.words, w.analyses k ≠ []) :
    let filled := (load g s k).fill g
    ((load g s k).parse g).1 = .ok () ∧
      (∀ c : Coord, c.within s.size → c ≠ filled.top →
        (parsed g s k).cell c = filled.cell c) ∧
      (s.size = 1 →
        ∃ e ∈ filled.complete filled.top, e.head ∉ g.neverTop ∧ e.head ∉ g.hidden) ∧
      ((∃ e ∈ filled.complete filled.top, e.head ∉ g.neverTop ∧ e.head ∉ g.hidden) →
        (parsed g s k).cell filled.top = filled.cell filled.top) ∧
      ((∀ e ∈ filled.complete filled.top, e.head ∈ g.neverTop ∨ e.head ∈ g.hidden) →
        ∃ cs heads, filled.cover g 0 s.size = .ok cs ∧ Coord.Consecutive 0 s.size cs ∧
          List.Forall₂ (fun c x =>
            ∃ e, g.best? (filled.complete c) = some e ∧ e.head = x) cs heads ∧
          Edge.isComplete ⟨⟨g.start, heads, none⟩, cs⟩ ∧
          (parsed g s k).cell filled.top =
            filled.cell filled.top ++ [⟨⟨g.start, heads, none⟩, cs⟩]) ∧
      ∀ chart ∈ [filled, parsed g s k], ∀ r : Coord, r.within s.size →
        ∃ c e left right, Foremost g chart r.start r.stop c e ∧
          chart.cover g r.start c.start = .ok left ∧ chart.cover g c.stop r.stop = .ok right ∧
          chart.cover g r.start r.stop = .ok (left ++ c :: right) := by
  intro filled
  have hfull := isFull_load g s k
  have hsize : (load g s k).size ≠ 0 := mt size_load_eq_zero_iff.1 hne
  have hok := (parse_load_eq_ok_iff h.wellFormed).2 ⟨hne, hwords⟩
  have htop : filled.top = (load g s k).top := top_fill g _
  have hwithin : filled.top.within (load g s k).size := htop ▸ within_top hsize
  have hroot : filled.root? g = none ↔
      ∀ e ∈ filled.complete filled.top, e.head ∈ g.neverTop ∨ e.head ∈ g.hidden :=
    root?_eq_none_iff
  have hroot' : filled.root? g ≠ none ↔
      ∃ e ∈ filled.complete filled.top, e.head ∉ g.neverTop ∧ e.head ∉ g.hidden := by
    simp only [Ne, hroot, not_forall, not_or, exists_prop]
  refine ⟨hok, fun c hc hct => ?_, fun hone => hroot'.1 ?_, fun hkeep => ?_, fun hnone => ?_,
    fun chart hchart r hr => exists_foremost_of_lt r.start_lt_stop fun j _ hj => ?_⟩
  · rw [parsed, cell_parse hfull hc, if_neg (htop ▸ hct), List.append_nil]
  · exact root?_ne_none_of_size_eq_one h.wellFormed hone
      (Sentence.forall_isAnalysed_iff.2 hwords 0 (hone ▸ Nat.zero_lt_one))
  · obtain ⟨e, he⟩ := Option.ne_none_iff_exists'.1 (hroot'.2 hkeep)
    have hadded := addedRoot?_eq_none_of_root? he
    rw [parsed, cell_parse hfull hwithin, hadded, Option.toList_none, ite_self, List.append_nil]
  · obtain ⟨e, he⟩ := exists_addedRoot?_eq_some hok (hroot.2 hnone)
    have hcomplete := isComplete_of_addedRoot? he
    obtain ⟨-, -, cs, heads, hcover, hheads, rfl⟩ := addedRoot?_eq_some he
    refine ⟨cs, heads, hcover, (consecutive_of_cover (Nat.zero_le _) hcover).1, hheads,
      hcomplete, ?_⟩
    rw [parsed, cell_parse hfull hwithin, if_pos htop, he, Option.toList_some]
  · have hj' : j < s.size := hj.trans_le (Coord.within_iff_stop.1 hr)
    have hfilled : filled.complete ⟨0, j⟩ ≠ [] :=
      complete_fill_ne_nil_of_isAnalysed (Sentence.forall_isAnalysed_iff.2 hwords j hj')
    rcases List.mem_cons.1 hchart with rfl | hchart
    · exact hfilled
    · obtain rfl := List.mem_singleton.1 hchart
      have hc : (⟨0, j⟩ : Coord).within (load g s k).size := Coord.within_iff_stop.2 hj'
      obtain ⟨e, he⟩ := List.exists_mem_of_ne_nil _ hfilled
      exact List.ne_nil_of_mem
        (List.filter_subset _ (cell_fill_subset_cell_parse hfull hc) he)

/-- A phrase between two words: the cover takes the phrase first, then the words on either side. -/
theorem added_root_of_inner_phrase :
    let g := RuleSet.ofText "XP ==> DT, +NN . YP ==> VB . @START S ."
    let s : Sentence := ⟨"", [.tagged "runs" "run" "VB", .tagged "the" "the" "DT",
      .tagged "cat" "cat" "NN", .tagged "runs" "run" "VB"], []⟩
    g.Loaded ∧ s.words ≠ [] ∧ (∀ w ∈ s.words, w.analyses 0 ≠ []) ∧
      ∃ heads, (parsed g s 0).cell ⟨3, 0⟩ =
        [⟨⟨"S", heads, none⟩, [⟨0, 0⟩, ⟨1, 1⟩, ⟨0, 3⟩]⟩] := by
  intro g s
  have hg : g.Loaded := RuleSet.loaded_ofText (by decide +kernel)
  have hne : s.words ≠ [] := List.cons_ne_nil _ _
  have hwords : ∀ w ∈ s.words, w.analyses 0 ≠ [] := by decide +kernel
  have htop : ((load g s 0).fill g).top = ⟨3, 0⟩ := top_fill g (load g s 0)
  have hempty : ((load g s 0).fill g).cell ⟨3, 0⟩ = [] := by decide +kernel
  have hcover : ((load g s 0).fill g).cover g 0 s.size =
      .ok [⟨0, 0⟩, ⟨1, 1⟩, ⟨0, 3⟩] := by decide +kernel
  obtain ⟨-, -, -, -, hadded, -⟩ := added_root_of_cover hg hne hwords
  obtain ⟨cs, heads, hcs, -, -, -, hcell⟩ := hadded fun e he => by
    rw [htop, complete, hempty] at he
    cases he
  rw [hcover, Except.ok.injEq] at hcs
  have hstart : g.start = "S" := by decide +kernel
  rw [htop, hempty, ← hcs, hstart, List.nil_append] at hcell
  exact ⟨hg, hne, hwords, heads, hcell⟩

end Chunker.Chart
