import Chunker.Chart.Derivation
import Chunker.Proofs.Chart.Filling
import Chunker.Proofs.Chart.Preference
import Mathlib.Data.List.Nodup
import Mathlib.Data.List.Perm.Subperm

/-!
# Where a category is found first

The edges of a chart stand in one long row, cell after cell in the order of the table. The first
place of a category in a cell is the number of edges before its first complete edge there. Trees
are read off a chart towards earlier places, and there are as many places as edges.

## Main definitions

* `Chart.firstPlace` : the place of the first complete edge of a category in a cell.

## Main results

* `Chart.firstPlace_lt_edgeCount` : there are as many places as edges.
* `Chart.length_le_edgeCount` : no more categories are made in cells than there are edges.
* `Chart.firstPlace_lt_of_index_lt`, `Chart.firstPlace_lt_of_mem_before` : earlier places.
* `Chart.exists_split_of_bestFor?` : the best edge of a category is the first with as many matched
  patterns.
-/

namespace Chunker

namespace Chart

variable {chart : Chart} {c d : Coord} {x y : Category}

/-! ### Edges before a cell -/

/-- The number of edges in the first cells of the table. -/
def edgesBefore (chart : Chart) (i : Nat) : Nat :=
  (chart.table.toList.take i).flatten.length

theorem edgesBefore_mono {i j : Nat} (h : i ≤ j) : chart.edgesBefore i ≤ chart.edgesBefore j := by
  obtain ⟨m, rfl⟩ := Nat.exists_eq_add_of_le h
  rw [edgesBefore, edgesBefore, List.take_add, List.flatten_append, List.length_append]
  exact Nat.le_add_right _ _

theorem edgesBefore_le_edgeCount (i : Nat) : chart.edgesBefore i ≤ chart.edgeCount := by
  have hmono : chart.edgesBefore i ≤ chart.edgesBefore (i + chart.table.toList.length) :=
    edgesBefore_mono (Nat.le_add_right _ _)
  have hall : chart.edgesBefore (i + chart.table.toList.length) = chart.edgeCount := by
    rw [edgesBefore, List.take_of_length_le (Nat.le_add_left _ _), edgeCount]
  omega

theorem edgesBefore_index_succ (hf : chart.IsFull) (hc : c.within chart.size) :
    chart.edgesBefore (c.index chart.size + 1) =
      chart.edgesBefore (c.index chart.size) + (chart.cell c).length := by
  have hlt : c.index chart.size < chart.table.size := hf ▸ Coord.index_lt_count hc
  have hget : chart.table.toList[c.index chart.size]? = some (chart.cell c) := by
    rw [cell, Array.getD_eq_getD_getElem?, Array.getElem?_toList, Array.getElem?_eq_getElem hlt,
      Option.getD_some]
  rw [edgesBefore, edgesBefore, List.take_add_one, hget, List.flatten_append, List.length_append,
    Option.toList_some, List.flatten_singleton]

/-! ### First places -/

/-- Holds of a complete edge of a category. -/
def makes (x : Category) (e : Edge) : Bool :=
  e.isComplete && e.head == x

theorem makes_iff {e : Edge} : makes x e = true ↔ e.isComplete ∧ e.head = x := by
  simp [makes]

/-- The number of edges before the first complete edge of a category in a cell. -/
def firstPlace (chart : Chart) (c : Coord) (x : Category) : Nat :=
  chart.edgesBefore (c.index chart.size) + (chart.cell c).findIdx (makes x)

private theorem firstPlace_lt_edgesBefore_succ (hf : chart.IsFull) (hc : c.within chart.size)
    (h : ∃ e ∈ chart.cell c, makes x e) :
    chart.firstPlace c x < chart.edgesBefore (c.index chart.size + 1) := by
  have hidx := List.findIdx_lt_length_of_exists h
  rw [edgesBefore_index_succ hf hc, firstPlace]
  omega

/-- There are as many places as edges. -/
theorem firstPlace_lt_edgeCount (hf : chart.IsFull) (hc : c.within chart.size)
    (h : ∃ e ∈ chart.cell c, makes x e) : chart.firstPlace c x < chart.edgeCount :=
  (firstPlace_lt_edgesBefore_succ hf hc h).trans_le (edgesBefore_le_edgeCount _)

/-- The places in a cell come before those in the later cells of the table. -/
theorem firstPlace_lt_of_index_lt (hf : chart.IsFull) (hd : d.within chart.size)
    (h : ∃ e ∈ chart.cell d, makes y e) (hlt : d.index chart.size < c.index chart.size) :
    chart.firstPlace d y < chart.firstPlace c x := by
  have h₁ := firstPlace_lt_edgesBefore_succ hf hd h
  have h₂ : chart.edgesBefore (d.index chart.size + 1) ≤ chart.edgesBefore (c.index chart.size) :=
    edgesBefore_mono hlt
  exact (h₁.trans_le h₂).trans_le (Nat.le_add_right _ _)

/-- Two categories in cells have their first places apart. -/
theorem eq_of_firstPlace_eq (hf : chart.IsFull) (hc : c.within chart.size)
    (hd : d.within chart.size) (hx : ∃ e ∈ chart.cell c, makes x e)
    (hy : ∃ e ∈ chart.cell d, makes y e) (h : chart.firstPlace c x = chart.firstPlace d y) :
    x = y ∧ c = d := by
  rcases lt_trichotomy (c.index chart.size) (d.index chart.size) with hlt | heq | hgt
  · exact absurd h (firstPlace_lt_of_index_lt hf hc hx hlt).ne
  · obtain rfl := Coord.index_injective hc hd heq
    have hidx : (chart.cell c).findIdx (makes x) = (chart.cell c).findIdx (makes y) :=
      Nat.add_left_cancel h
    have hmakes := List.findIdx_getElem (w := List.findIdx_lt_length_of_exists hx)
    have hmakes' := List.findIdx_getElem (w := List.findIdx_lt_length_of_exists hy)
    simp only [hidx] at hmakes
    exact ⟨(makes_iff.1 hmakes).2.symm.trans (makes_iff.1 hmakes').2, rfl⟩
  · exact absurd h (firstPlace_lt_of_index_lt hf hd hy hgt).ne'

/-- There are no more categories made in cells than edges. -/
theorem length_le_edgeCount (hf : chart.IsFull) {vs : List (Category × Coord)} (h : vs.Nodup)
    (hmade : ∀ v ∈ vs, v.2.within chart.size ∧ ∃ e ∈ chart.cell v.2, makes v.1 e) :
    vs.length ≤ chart.edgeCount := by
  have hnodup : (vs.map fun v => chart.firstPlace v.2 v.1).Nodup := by
    refine List.Nodup.map_on (fun v hv v' hv' heq => ?_) h
    obtain ⟨hx, hc⟩ := eq_of_firstPlace_eq hf (hmade v hv).1 (hmade v' hv').1 (hmade v hv).2
      (hmade v' hv').2 heq
    exact Prod.ext hx hc
  have hsubset : (vs.map fun v => chart.firstPlace v.2 v.1) ⊆ List.range chart.edgeCount := by
    rw [List.subset_def, List.forall_mem_map]
    exact fun v hv =>
      List.mem_range.2 (firstPlace_lt_edgeCount hf (hmade v hv).1 (hmade v hv).2)
  simpa using (hnodup.subperm hsubset).length_le

/-- A category found among the first edges of a cell has an earlier place than one that is not. -/
theorem firstPlace_lt_of_mem_before {before after : List Edge}
    (hcell : chart.cell c = before ++ after) (hx : ∀ e ∈ before, ¬ makes x e)
    (hy : ∃ e ∈ before, makes y e) : chart.firstPlace c y < chart.firstPlace c x := by
  have hylt := List.findIdx_lt_length_of_exists hy
  have hxeq : before.findIdx (makes x) = before.length :=
    List.findIdx_eq_length_of_false fun e he => Bool.eq_false_iff.2 (hx e he)
  rw [firstPlace, firstPlace, hcell, List.findIdx_append, List.findIdx_append, if_pos hylt,
    if_neg hxeq.not_lt]
  omega

/-! ### Best edges -/

variable {g : RuleSet} {e : Edge}

private theorem bestFor?_eq (g : RuleSet) (chart : Chart) (c : Coord) (x : Category) :
    chart.bestFor? g c x = g.best? ((chart.cell c).filter (makes x)) := by
  rw [bestFor?, complete, Cell.complete, List.filter_filter]
  congr 2
  funext e
  exact Bool.and_comm _ _

theorem exists_bestFor? (h : ∃ e ∈ chart.cell c, makes x e) :
    ∃ e, chart.bestFor? g c x = some e := by
  rw [bestFor?_eq, ← Option.ne_none_iff_exists', ne_eq, RuleSet.best?_eq_none_iff]
  obtain ⟨e, he, hx⟩ := h
  exact List.ne_nil_of_mem (List.mem_filter.2 ⟨he, hx⟩)

/-- The best edge of a category makes it, and the complete edges of the category that stand before
it in the cell have fewer matched patterns. -/
theorem exists_split_of_bestFor? (h : chart.bestFor? g c x = some e) :
    makes x e ∧ ∃ before after, chart.cell c = before ++ e :: after ∧
      ∀ e' ∈ before, makes x e' → e'.matched.length < e.matched.length := by
  rw [bestFor?_eq] at h
  have hx : makes x e := (List.mem_filter.1 (RuleSet.mem_of_best? h)).2
  obtain ⟨es, es', hes, hlt, -⟩ := RuleSet.best?_eq_some_iff.1 h
  obtain ⟨before, rest, hcell, hbefore, hrest⟩ := List.filter_eq_append_iff.1 hes
  obtain ⟨between, after, rfl, hbetween, -, -⟩ := List.filter_eq_cons_iff.1 hrest
  refine ⟨hx, before ++ between, after, by rw [hcell, List.append_assoc], fun e' he' hx' => ?_⟩
  have hes' : e' ∈ es := by
    rcases List.mem_append.1 he' with he' | he'
    · exact hbefore ▸ List.mem_filter.2 ⟨he', hx'⟩
    · exact absurd hx' (hbetween e' he')
  have hhead : e.head = e'.head := (makes_iff.1 hx).2.trans (makes_iff.1 hx').2.symm
  exact RuleSet.length_lt_of_rank_lt hhead (hlt e' hes')

end Chart

end Chunker
