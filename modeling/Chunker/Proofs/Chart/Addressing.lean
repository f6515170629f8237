import Chunker.Chart
import Mathlib.Algebra.Order.Ring.Nat
import Mathlib.Algebra.Group.Nat.Even

/-!
# Addresses of cells

The cells of a chart lie in its table row after row and, within a row, from left to right. The
cells before row `m` number `m * (n + 1) - m * (m + 1) / 2` in a chart over `n` words, because
row `i` has `n - i` cells; neither this difference nor the division loses anything for the rows
of the chart. So a cell comes before another in the table as it does in the order of rows and
positions, and no two cells share a place.

## Main definitions

* `Coord.rowOffset` : the number of cells before a row.
* `Coord.Precedes` : the order of cells by row and position.

## Main results

* `Coord.index_lt_index` : the table keeps the order of cells.
* `Coord.index_lt_count`, `Coord.exists_index_eq` : every cell of the chart has a place in the
  table, and every place belongs to a cell.
* `Chart.cell_put_self`, `Chart.cell_put_of_ne` : a cell that is written, and the others.
* `Chart.eq_of_cell_eq` : charts are told apart by their cells.
-/

namespace Chunker

namespace Coord

/-! ### Rows -/

/-- The number of cells before a row of a chart over `n` words. -/
def rowOffset (n span : Nat) : Nat :=
  span * (n + 1) - span * (span + 1) / 2

private theorem half_le {n span : Nat} (h : span ≤ n) :
    span * (span + 1) / 2 ≤ span * (n + 1) :=
  (Nat.div_le_self _ _).trans (Nat.mul_le_mul_left _ (by omega))

private theorem half_succ (span : Nat) :
    (span + 1) * (span + 1 + 1) / 2 = span * (span + 1) / 2 + (span + 1) := by
  have h : (span + 1) * (span + 1 + 1) = span * (span + 1) + 2 * (span + 1) := by grind
  rw [h, Nat.add_mul_div_left _ _ (by decide)]

/-- Row `span` has `n - span` cells. -/
theorem rowOffset_succ {n span : Nat} (h : span < n) :
    rowOffset n (span + 1) = rowOffset n span + (n - span) := by
  have h₁ : (span + 1) * (n + 1) = span * (n + 1) + (n + 1) := by grind
  have h₂ := half_le h.le
  rw [rowOffset, rowOffset, half_succ, h₁]
  omega

theorem rowOffset_self (n : Nat) : rowOffset n n = count n := by
  obtain ⟨m, hm⟩ := Nat.even_mul_succ_self n
  have h : (n + 1) * n = n * (n + 1) := Nat.mul_comm _ _
  rw [rowOffset, count, h]
  omega

theorem rowOffset_one (n : Nat) : rowOffset n 1 = n := by
  simp [rowOffset]

theorem rowOffset_mono {n span span' : Nat} (h : span ≤ span') (h' : span' ≤ n) :
    rowOffset n span ≤ rowOffset n span' := by
  induction span', h using Nat.le_induction with
  | base => exact le_rfl
  | succ m _ ih =>
    rw [rowOffset_succ h']
    exact (ih (by omega)).trans (Nat.le_add_right _ _)

theorem index_eq {n : Nat} {c : Coord} (h : c.span ≤ n) :
    c.index n = rowOffset n c.span + c.start := by
  have := half_le h
  rw [index, rowOffset]
  omega

/-! ### Order -/

/-- The order of cells by row and, within a row, by position. -/
def Precedes (c d : Coord) : Prop :=
  c.span < d.span ∨ c.span = d.span ∧ c.start < d.start

theorem within_iff {c : Coord} {n : Nat} :
    c.within n = true ↔ c.span < n ∧ c.start < n - c.span := by
  simp [within]

theorem within_iff_stop {c : Coord} {n : Nat} : c.within n = true ↔ c.stop ≤ n := by
  rw [within_iff, stop]
  omega

/-- A cell is within a chart if its words end no later than those of another one that is. -/
theorem within_of_stop_le {c d : Coord} {n : Nat} (hc : c.within n) (h : d.stop ≤ c.stop) :
    d.within n :=
  within_iff_stop.2 (h.trans (within_iff_stop.1 hc))

theorem precedes_or_eq_or_precedes (c d : Coord) : Precedes c d ∨ c = d ∨ Precedes d c := by
  obtain ⟨a, i⟩ := c
  obtain ⟨b, j⟩ := d
  simp only [Precedes, mk.injEq]
  omega

private theorem index_lt_rowOffset_succ {n : Nat} {c : Coord} (h : c.within n) :
    c.index n < rowOffset n (c.span + 1) := by
  obtain ⟨h₁, h₂⟩ := within_iff.1 h
  rw [index_eq h₁.le, rowOffset_succ h₁]
  omega

/-- Every cell of the chart has a place in the table. -/
theorem index_lt_count {n : Nat} {c : Coord} (h : c.within n) : c.index n < count n := by
  refine (index_lt_rowOffset_succ h).trans_le ?_
  rw [← rowOffset_self]
  exact rowOffset_mono (within_iff.1 h).1 le_rfl

/-- The table keeps the order of cells. -/
theorem index_lt_index {n : Nat} {c d : Coord} (hc : c.within n) (hd : d.within n)
    (h : Precedes c d) : c.index n < d.index n := by
  have hd' := (within_iff.1 hd).1.le
  rcases h with h | ⟨h, h'⟩
  · calc c.index n < rowOffset n (c.span + 1) := index_lt_rowOffset_succ hc
      _ ≤ rowOffset n d.span := rowOffset_mono h hd'
      _ ≤ d.index n := by rw [index_eq hd']; exact Nat.le_add_right _ _
  · rw [index_eq (within_iff.1 hc).1.le, index_eq hd', h]
    omega

theorem index_injective {n : Nat} {c d : Coord} (hc : c.within n) (hd : d.within n)
    (h : c.index n = d.index n) : c = d := by
  rcases precedes_or_eq_or_precedes c d with h' | h' | h'
  · exact absurd h (index_lt_index hc hd h').ne
  · exact h'
  · exact absurd h (index_lt_index hd hc h').ne'

/-- Every place of the table is that of a cell. -/
theorem exists_index_eq {n i : Nat} (h : i < count n) :
    ∃ c : Coord, c.within n ∧ c.index n = i := by
  suffices hrow : ∀ m ≤ n, i < rowOffset n m → ∃ c : Coord, c.within n ∧ c.index n = i from
    hrow n le_rfl ((rowOffset_self n).symm ▸ h)
  intro m hm hi
  induction m with
  | zero => exact absurd hi (by simp [rowOffset])
  | succ m ih =>
    by_cases hlt : i < rowOffset n m
    · exact ih (Nat.le_of_succ_le hm) hlt
    · -- The place lies in row `m`, which begins at its offset.
      have hsucc := rowOffset_succ hm
      refine ⟨⟨m, i - rowOffset n m⟩, within_iff.2 ⟨hm, ?_⟩, ?_⟩
      · dsimp only
        omega
      · rw [index_eq (Nat.le_of_succ_le hm)]
        dsimp only
        omega

/-! ### Enumeration -/

theorem mem_row {n span : Nat} {c : Coord} :
    c ∈ row n span ↔ c.span = span ∧ c.start < n - span := by
  obtain ⟨a, i⟩ := c
  simp only [row, List.mem_map, List.mem_range, mk.injEq]
  constructor
  · rintro ⟨j, hj, rfl, rfl⟩
    exact ⟨rfl, hj⟩
  · rintro ⟨rfl, hi⟩
    exact ⟨i, hi, rfl, rfl⟩

theorem mem_all {n : Nat} {c : Coord} : c ∈ all n ↔ c.within n := by
  simp only [all, List.mem_flatMap, List.mem_range, mem_row, within_iff]
  constructor
  · rintro ⟨_, hm, rfl, hs⟩
    exact ⟨hm, hs⟩
  · rintro ⟨hm, hs⟩
    exact ⟨c.span, hm, rfl, hs⟩

theorem pairwise_all (n : Nat) : (all n).Pairwise Precedes := by
  refine List.pairwise_flatMap.2 ⟨fun span _ => ?_, ?_⟩
  · refine List.pairwise_map.2 (List.pairwise_lt_range.imp fun h => ?_)
    exact .inr ⟨rfl, h⟩
  · refine List.pairwise_lt_range.imp fun h c hc d hd => ?_
    rw [mem_row] at hc hd
    exact .inl (by omega)

end Coord

/-! ### Reading and writing -/

namespace Chart

/-- A table with a place for every cell of the chart. -/
def IsFull (chart : Chart) : Prop :=
  chart.table.size = Coord.count chart.size

@[simp] theorem size_put (chart : Chart) (c : Coord) (es : Cell) :
    (chart.put c es).size = chart.size :=
  rfl

theorem IsFull.put {chart : Chart} (h : chart.IsFull) (c : Coord) (es : Cell) :
    (chart.put c es).IsFull := by
  simpa [IsFull, Chart.put] using h

/-- A cell that has been written holds what was written. -/
theorem cell_put_self {chart : Chart} (h : chart.IsFull) {c : Coord} (hc : c.within chart.size)
    (es : Cell) : (chart.put c es).cell c = es := by
  have hlt : c.index chart.size < chart.table.size := h ▸ Coord.index_lt_count hc
  simp [cell, put, Array.getD_eq_getD_getElem?, hlt]

/-- Writing a cell leaves the others. -/
theorem cell_put_of_ne {chart : Chart} {c d : Coord} (hc : c.within chart.size)
    (hd : d.within chart.size) (h : d ≠ c) (es : Cell) :
    (chart.put c es).cell d = chart.cell d := by
  have hne : c.index chart.size ≠ d.index chart.size := fun h' =>
    h (Coord.index_injective hc hd h').symm
  simp [cell, put, Array.getD_eq_getD_getElem?, Array.getElem?_setIfInBounds_ne hne]

/-- Two charts over as many words are the same if their cells hold the same edges. -/
theorem eq_of_cell_eq {chart chart' : Chart} (hf : chart.IsFull) (hf' : chart'.IsFull)
    (hsize : chart.size = chart'.size)
    (h : ∀ c : Coord, c.within chart.size → chart.cell c = chart'.cell c) : chart = chart' := by
  obtain ⟨n, table⟩ := chart
  obtain ⟨n', table'⟩ := chart'
  obtain rfl : n = n' := hsize
  have htable : table.size = table'.size := hf.trans hf'.symm
  refine congrArg (Chart.mk n) (Array.ext htable fun i hi hi' => ?_)
  obtain ⟨c, hc, rfl⟩ := Coord.exists_index_eq (hf ▸ hi : i < Coord.count n)
  have hcell := h c hc
  simpa only [cell, Array.getD_eq_getD_getElem?, Array.getElem?_eq_getElem hi,
    Array.getElem?_eq_getElem hi', Option.getD_some] using hcell

end Chart

end Chunker
