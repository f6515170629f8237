import Chunker.Proofs.Chart.Derivability
import Mathlib.Data.List.Forall2

/-!
# Locality of charts

What a cell of a parsed chart holds depends on the words that the cell covers and on nothing else:
not on the words around them, not on the length of the sentence, and not on the position of the
words in it. Two windows of as many words, of two sentences under two tag sequences, whose words
agree one by one in their lower-case forms and in their analyses, have cells with the same edges
in the same order; only the cells on the backpaths are moved by the distance between the windows.
An added root is left aside, because it speaks of the whole sentence.

The proof goes by the length of the window. The seeds of a word are moved as a whole, since the
rules that a category starts do not depend on the cell. The divisions of a longer window fall
into shorter windows, which hold moved edges, and moved edges match and are extended alike.

## Main definitions

* `Coord.MovedBy`, `Edge.MovedBy` : the same cell and the same edge at a distance.
* `Sentence.AgreeOn` : two windows whose words agree.
* `Chart.edgesBesidesRoot` : the edges of a cell of a parsed chart without an added root.

## Main results

* `Chart.cell_fill_movedBy` : the cells of two windows of filled charts.
* `Chart.edgesBesidesRoot_movedBy` : the cells of two windows of parsed charts.
-/

namespace Chunker

/-! ### Edges at a distance -/

/-- Holds of two cells for as many words, the second of which starts a distance after the first. -/
structure Coord.MovedBy (d : Int) (c c' : Coord) : Prop where
  span : c'.span = c.span
  start : (c'.start : Int) = c.start + d

/-- Holds of two edges that have matched the same patterns of a rule, the second by the cells of
the first moved by a distance. -/
structure Edge.MovedBy (d : Int) (e e' : Edge) : Prop where
  rule : e'.rule = e.rule
  backpath : List.Forall₂ (Coord.MovedBy d) e.backpath e'.backpath

/-- Holds of cells that hold the same edges in the same order, moved by a distance. -/
abbrev Cell.MovedBy (d : Int) : Cell → Cell → Prop :=
  List.Forall₂ (Edge.MovedBy d)

/-- Holds of two windows of `m + 1` words whose words agree one by one in their lower-case forms
and in their analyses: of the window from position `i` of a sentence under sequence `k`, and of the
window from position `j` of another sentence under sequence `k'`. -/
def Sentence.AgreeOn (s : Sentence) (k : Nat) (s' : Sentence) (k' m i j : Nat) : Prop :=
  ∀ a ≤ m, ∃ w w', s.words[i + a]? = some w ∧ s'.words[j + a]? = some w' ∧
    w'.lowerForm = w.lowerForm ∧ w'.analyses k' = w.analyses k

theorem Sentence.AgreeOn.part {s s' : Sentence} {k k' m i j : Nat}
    (h : s.AgreeOn k s' k' m i j) {a m' : Nat} (ha : a + m' ≤ m) :
    s.AgreeOn k s' k' m' (i + a) (j + a) := fun b hb => by
  rw [Nat.add_assoc, Nat.add_assoc]
  exact h (a + b) (by omega)

theorem Sentence.AgreeOn.within {s s' : Sentence} {k k' m i j : Nat}
    (h : s.AgreeOn k s' k' m i j) :
    (⟨m, i⟩ : Coord).within s.size ∧ (⟨m, j⟩ : Coord).within s'.size := by
  obtain ⟨w, w', hw, hw', -⟩ := h m le_rfl
  have hi : i + m < s.size := (List.getElem?_eq_some_iff.1 hw).1
  have hj : j + m < s'.size := (List.getElem?_eq_some_iff.1 hw').1
  simp only [Coord.within_iff]
  omega

namespace Edge.MovedBy

variable {d : Int} {e e' : Edge}

theorem head (h : e.MovedBy d e') : e'.head = e.head := by
  rw [Edge.head, Edge.head, h.rule]

theorem isActive (h : e.MovedBy d e') : e'.isActive = e.isActive := by
  rw [Edge.isActive, Edge.isActive, h.rule, h.backpath.length_eq]

theorem isComplete (h : e.MovedBy d e') : e'.isComplete = e.isComplete := by
  rw [Edge.isComplete, Edge.isComplete, h.isActive]

theorem next? (h : e.MovedBy d e') : e'.next? = e.next? := by
  rw [Edge.next?, Edge.next?, pending, pending, h.rule, h.backpath.length_eq]

theorem lexical (x : Category) : (Edge.lexical x).MovedBy d (Edge.lexical x) :=
  ⟨rfl, .nil⟩

theorem shift (h : e.MovedBy d e') {c c' : Coord} (hc : c.MovedBy d c') :
    Option.Rel (Edge.MovedBy d) (e.shift c) (e'.shift c') := by
  rw [Edge.shift, Edge.shift, h.isActive]
  split
  · exact .some ⟨h.rule, List.rel_append h.backpath (.cons hc .nil)⟩
  · exact .none

end Edge.MovedBy

/-- The rules that a category starts do not depend on the cell. -/
theorem RuleSet.startEdges_movedBy (g : RuleSet) (x : Category) {d : Int} {c c' : Coord}
    (hc : c.MovedBy d c') : Cell.MovedBy d (g.startEdges x c) (g.startEdges x c') := by
  refine List.rel_filterMap (R := Eq) ?_ (List.forall₂_refl _)
  rintro r _ rfl
  exact Edge.MovedBy.shift ⟨rfl, .nil⟩ hc

namespace Chart

variable {g : RuleSet} {s s' : Sentence} {k k' : Nat} {d : Int}

/-! ### Filled charts -/

theorem seeds_movedBy {w w' : Word} (hform : w'.lowerForm = w.lowerForm)
    (hanalyses : w'.analyses k' = w.analyses k) {c c' : Coord} (hc : c.MovedBy d c') :
    Cell.MovedBy d (seeds g k w c) (seeds g k' w' c') := by
  have hcategories : (w'.analyses k').flatMap (seedCategories w') =
      (w.analyses k).flatMap (seedCategories w) := by
    rw [hanalyses]
    refine List.flatMap_congr fun a _ => ?_
    rw [seedCategories, seedCategories, hform]
  rw [seeds, seeds, hcategories]
  refine List.rel_flatMap (R := Eq) (List.forall₂_refl _) ?_
  rintro x _ rfl
  exact .cons (.lexical x) (g.startEdges_movedBy x hc)

section Extend

variable {chart chart' : Chart} {c c' r r' : Coord}

theorem complete_movedBy (h : Cell.MovedBy d (chart.cell c) (chart'.cell c')) :
    Cell.MovedBy d (chart.complete c) (chart'.complete c') := by
  refine List.rel_filter (fun e e' he => ?_) h
  dsimp only
  rw [he.isComplete]

theorem matchesAt_eq_of_movedBy (h : Cell.MovedBy d (chart.cell r) (chart'.cell r'))
    (p : Category) : chart'.matchesAt g p r' = chart.matchesAt g p r := by
  have hcomplete := complete_movedBy h
  rw [matchesAt, matchesAt]
  generalize chart.complete r = es, chart'.complete r' = es' at hcomplete
  induction hcomplete with
  | nil => rfl
  | cons he _ ih => rw [List.any_cons, List.any_cons, ih, he.head]

theorem extend_movedBy (hc : c.MovedBy d c') (hr : r.MovedBy d r')
    (hcell : Cell.MovedBy d (chart.cell r) (chart'.cell r')) {e e' : Edge}
    (he : e.MovedBy d e') :
    Cell.MovedBy d (chart.extend g c r e) (chart'.extend g c' r' e') := by
  have hshift := he.shift hr
  rw [extend, extend, he.next?]
  split
  · exact .nil
  · rename_i p hp
    rw [matchesAt_eq_of_movedBy hcell]
    split
    · generalize e.shift r = f at hshift
      generalize e'.shift r' = f' at hshift
      cases hshift with
      | none => exact .nil
      | some h =>
        dsimp only
        rw [h.isActive]
        split
        · exact .cons h .nil
        · rw [h.head]
          exact .cons h (g.startEdges_movedBy _ hc)
    · exact .nil

end Extend

/-- Two windows whose words agree have the same edges in the filled charts of their sentences, moved
by the distance between the windows. -/
theorem cell_fill_movedBy {m i j : Nat} (h : s.AgreeOn k s' k' m i j) :
    Cell.MovedBy (j - i) (((load g s k).fill g).cell ⟨m, i⟩)
      (((load g s' k').fill g).cell ⟨m, j⟩) := by
  induction m using Nat.strong_induction_on generalizing i j with
  | _ m ih =>
    obtain ⟨hin, hin'⟩ := h.within
    have hmoved : Coord.MovedBy (j - i) ⟨m, i⟩ ⟨m, j⟩ := ⟨rfl, by simp⟩
    rcases Nat.eq_zero_or_pos m with rfl | hm
    · obtain ⟨w, w', hw, hw', hform, hanalyses⟩ := h 0 le_rfl
      rw [cell_fill_of_span_eq_zero hin rfl, cell_fill_of_span_eq_zero hin' rfl]
      rw [Nat.add_zero] at hw hw'
      rw [cell_load hw, cell_load hw']
      exact seeds_movedBy hform hanalyses hmoved
    · rw [cell_fill_of_span_pos (isFull_load g s k) hin hm,
        cell_fill_of_span_pos (isFull_load g s' k') hin' hm, combine, combine, Coord.splits,
        Coord.splits, List.flatMap_map, List.flatMap_map]
      -- The windows are divided at the same place.
      refine List.rel_flatMap (R := fun a a' => a = a' ∧ a < m)
        (List.forall₂_same.2 fun a ha => ⟨rfl, List.mem_range.1 ha⟩) ?_
      rintro a _ ⟨rfl, ha⟩
      have hleft := ih a ha (h.part (a := 0) (by omega))
      have hright := ih (m - a - 1) (by omega) (h.part (a := a + 1) (by omega))
      have hdist : (((j + (a + 1) : Nat) : Int) - ((i + (a + 1) : Nat) : Int)) = j - i := by
        omega
      have hmoved' : Coord.MovedBy (j - i) ⟨m - a - 1, i + a + 1⟩ ⟨m - a - 1, j + a + 1⟩ :=
        ⟨rfl, by push_cast; omega⟩
      rw [hdist] at hright
      exact List.rel_flatMap hleft fun e e' he => extend_movedBy hmoved hmoved' hright he

/-! ### Parsed charts -/

/-- The edges of a cell of a parsed chart without the root that parsing has added. -/
def edgesBesidesRoot (g : RuleSet) (s : Sentence) (k : Nat) (c : Coord) : Cell :=
  ((parsed g s k).cell c).filter fun e => (load g s k).addedRoot? g != some e

/-- Without an added root, a cell of a parsed chart is that of the filled one. -/
theorem edgesBesidesRoot_eq (h : g.WellFormed) {c : Coord} (hc : c.within s.size) :
    edgesBesidesRoot g s k c = ((load g s k).fill g).cell c := by
  rw [edgesBesidesRoot, parsed, cell_parse (isFull_load g s k) hc, List.filter_append]
  have hfill : ∀ e ∈ ((load g s k).fill g).cell c,
      ((load g s k).addedRoot? g != some e) = true := fun e he =>
    bne_iff_ne.2 ((mem_cell_parse_iff h hc).2 he).2
  have hadded : (if c = (load g s k).top then ((load g s k).addedRoot? g).toList else []).filter
      (fun e => (load g s k).addedRoot? g != some e) = [] := by
    refine List.filter_eq_nil_iff.2 fun e he => ?_
    split at he
    · simp [Option.mem_toList.1 he]
    · exact absurd he List.not_mem_nil
  rw [List.filter_eq_self.2 hfill, hadded, List.append_nil]

/-- Two windows whose words agree have the same edges in the same order in the parsed charts of
their sentences, moved by the distance between the windows, whatever stands around them and
whatever the outcomes of parsing. -/
theorem edgesBesidesRoot_movedBy (h : g.Loaded) {m i j : Nat} (hw : s.AgreeOn k s' k' m i j) :
    Cell.MovedBy (j - i) (edgesBesidesRoot g s k ⟨m, i⟩) (edgesBesidesRoot g s' k' ⟨m, j⟩) := by
  obtain ⟨hin, hin'⟩ := hw.within
  rw [edgesBesidesRoot_eq h.wellFormed hin, edgesBesidesRoot_eq h.wellFormed hin']
  exact cell_fill_movedBy hw

/-- The two words of one sentence, whose top cell has an added root, and the same words at the end
of a longer sentence, in another case and under its second sequence. -/
theorem edgesBesidesRoot_movedBy_of_two_words :
    let g := RuleSet.ofText "np ==> DT, +N* . vp ==> VB(see), +np . @NOTOP np . @START S ."
    let s : Sentence := ⟨"1", [.tagged "The" "the" "DT", .tagged "cat" "cat" "NN"], []⟩
    let s' : Sentence := ⟨"2", [⟨"see", [[], [⟨"see", "VB"⟩]]⟩, ⟨"see", [[], [⟨"see", "NN"⟩]]⟩,
      ⟨"the", [[], [⟨"the", "DT"⟩]]⟩, ⟨"CAT", [[], [⟨"cat", "NN"⟩]]⟩], []⟩
    g.Loaded ∧ s.AgreeOn 0 s' 1 1 0 2 ∧ (load g s 0).addedRoot? g ≠ none ∧
      Cell.MovedBy 2 (edgesBesidesRoot g s 0 ⟨1, 0⟩) (edgesBesidesRoot g s' 1 ⟨1, 2⟩) ∧
      edgesBesidesRoot g s' 1 ⟨1, 2⟩ =
        [⟨⟨"np", ["DT", "N*"], some 1⟩, [⟨0, 2⟩, ⟨0, 3⟩]⟩] := by
  intro g s s'
  have hg : g.Loaded := RuleSet.loaded_ofText (by decide +kernel)
  have hw : s.AgreeOn 0 s' 1 1 0 2 := by
    intro a ha
    obtain rfl | rfl : a = 0 ∨ a = 1 := by omega
    · exact ⟨_, _, rfl, rfl, by decide +kernel, by decide +kernel⟩
    · exact ⟨_, _, rfl, rfl, by decide +kernel, by decide +kernel⟩
  exact ⟨hg, hw, by decide +kernel, edgesBesidesRoot_movedBy hg hw, by decide +kernel⟩

end Chart

end Chunker
