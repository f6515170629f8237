import Chunker.Proofs.Chart.Reuse
import Mathlib.Data.Set.Function

/-!
# The table of a chart

The address of a cell is a difference, and half of a product is taken away in it. For the cells of
a chart nothing is lost by this: what is taken away is never more than what is there. The
addresses of the cells, row by row, are then the numbers `0, 1, 2, …` up to the number of cells,
each once. So the table of a chart is the list of its cells in their order. This holds of a chart
that has been loaded and parsed any number of times, because every call leaves the table as long
as the number of words asks for.

## Main results

* `Coord.index_add_half` : nothing is lost in an address.
* `Coord.map_index_all` : the addresses of the cells in their order.
* `Chart.isFull_run` : a chart has a place for every cell after any calls.
* `Chart.toList_table` : the table is the list of the cells.
* `Chart.bijOn_index` : the addresses of the cells, and the table of a chart that is used.
-/

namespace Chunker

namespace Coord

variable {n : Nat} {c d : Coord}

/-! ### Addresses -/

/-- Nothing is lost in an address: the number that is taken away is at most the number that is
there. -/
theorem index_add_half (hc : c.within n) :
    c.index n + c.span * (c.span + 1) / 2 = c.start + c.span * (n + 1) := by
  have hspan : c.span ≤ n := (within_iff.1 hc).1.le
  have hhalf : c.span * (c.span + 1) / 2 ≤ c.span * (n + 1) :=
    (Nat.div_le_self _ _).trans (Nat.mul_le_mul_left _ (Nat.succ_le_succ hspan))
  rw [index]
  omega

/-- The addresses of two cells compare as their rows and positions do. -/
theorem index_lt_index_iff (hc : c.within n) (hd : d.within n) :
    c.index n < d.index n ↔ c.Precedes d := by
  refine ⟨fun hlt => ?_, index_lt_index hc hd⟩
  rcases precedes_or_eq_or_precedes c d with h | rfl | h
  · exact h
  · exact absurd hlt (lt_irrefl _)
  · exact absurd hlt (index_lt_index hd hc h).not_gt

private theorem map_index_row {span : Nat} (h : span ≤ n) :
    (row n span).map (index n) = (List.range (n - span)).map (rowOffset n span + ·) := by
  rw [row, List.map_map]
  exact List.map_congr_left fun i _ => index_eq h

/-- The addresses of the cells, row by row, count the cells. -/
theorem map_index_all (n : Nat) : (all n).map (index n) = List.range (count n) := by
  suffices hrows : ∀ m ≤ n,
      ((List.range m).flatMap (row n)).map (index n) = List.range (rowOffset n m) by
    rw [all, hrows n le_rfl, rowOffset_self]
  intro m hm
  induction m with
  | zero => simp [rowOffset]
  | succ m ih =>
    -- Row `m` takes the addresses behind those of the rows before it.
    rw [List.range_succ, List.flatMap_append, List.map_append, ih (Nat.le_of_succ_le hm),
      List.flatMap_singleton, map_index_row (Nat.le_of_succ_le hm), ← List.range_add,
      rowOffset_succ hm]

theorem bijOn_index_count (n : Nat) :
    Set.BijOn (index n) {c | c.within n} (Set.Iio (count n)) :=
  ⟨fun _ hc => index_lt_count hc, fun _ hc _ hd h => index_injective hc hd h,
    fun _ hi => exists_index_eq hi⟩

theorem count_eq (n : Nat) : count n = n * (n + 1) / 2 := by
  rw [count, Nat.mul_comm]

end Coord

namespace Chart

variable {g : RuleSet} {chart : Chart}

/-! ### Tables -/

theorem IsFull.call (h : chart.IsFull) (c : Call) : (chart.call g c).2.IsFull := by
  cases c with
  | load s k => exact (isFull_clear chart s.size).seedFrom 0 s.words
  | parse => exact h.parse

/-- A chart has a place for every cell after any calls. -/
theorem isFull_run (g : RuleSet) (calls : List Call) : (run g {} calls).IsFull := by
  induction calls using List.reverseRecOn with
  | nil => exact isFull_clear {} 0
  | append_singleton calls c ih =>
    rw [run_append]
    exact ih.call c

theorem getElem?_table (h : chart.IsFull) {c : Coord} (hc : c.within chart.size) :
    chart.table[c.index chart.size]? = some (chart.cell c) := by
  have hlt : c.index chart.size < chart.table.size := h ▸ Coord.index_lt_count hc
  rw [cell, Array.getD_eq_getD_getElem?, Array.getElem?_eq_getElem hlt, Option.getD_some]

/-- The table is the list of the cells, row by row. -/
theorem toList_table (h : chart.IsFull) :
    chart.table.toList = (Coord.all chart.size).map chart.cell := by
  have hcells : (Coord.all chart.size).map chart.cell =
      (List.range chart.table.size).map fun i => chart.table.getD i [] := by
    rw [h, ← Coord.map_index_all, List.map_map]
    rfl
  rw [hcells]
  refine List.ext_getElem (by simp) fun i hi _ => ?_
  have hlt : i < chart.table.size := hi
  simp [hlt]

theorem cell_put (h : chart.IsFull) {c d : Coord} (hc : c.within chart.size)
    (hd : d.within chart.size) (es : Cell) :
    (chart.put c es).cell d = if d = c then es else chart.cell d := by
  split
  · rename_i hdc
    exact hdc ▸ cell_put_self h hc es
  · rename_i hdc
    exact cell_put_of_ne hc hd hdc es

/-- **The cells of a chart and the places of its table are one to one.** The address of a cell is
computed without loss, and addresses compare as rows and, within a row, positions do. The cells of a
chart over `n` words have the addresses below `n * (n + 1) / 2`, each once. After any calls, the
table of a chart is as long as that, it holds the cells in their order, a cell is found at its
address, and writing a cell leaves all others. -/
theorem bijOn_index :
    (∀ n : Nat,
      (∀ c : Coord, c.within n →
        c.index n + c.span * (c.span + 1) / 2 = c.start + c.span * (n + 1)) ∧
      (∀ c d : Coord, c.within n → d.within n → (c.index n < d.index n ↔ c.Precedes d)) ∧
      Set.BijOn (Coord.index n) {c | c.within n} (Set.Iio (n * (n + 1) / 2))) ∧
    ∀ (g : RuleSet) (calls : List Call),
      let chart := run g {} calls
      Set.BijOn (Coord.index chart.size) {c | c.within chart.size} (Set.Iio chart.table.size) ∧
      chart.table.toList = (Coord.all chart.size).map chart.cell ∧
      (∀ c : Coord, c.within chart.size →
        chart.table[c.index chart.size]? = some (chart.cell c)) ∧
      ∀ (c d : Coord) (es : Cell), c.within chart.size → d.within chart.size →
        (chart.put c es).cell d = if d = c then es else chart.cell d := by
  refine ⟨fun n => ⟨fun c hc => Coord.index_add_half hc,
    fun c d hc hd => Coord.index_lt_index_iff hc hd, ?_⟩, fun g calls => ?_⟩
  · rw [← Coord.count_eq]
    exact Coord.bijOn_index_count n
  · intro chart
    have hfull : chart.IsFull := isFull_run g calls
    refine ⟨?_, toList_table hfull, fun c hc => getElem?_table hfull hc,
      fun c d es hc hd => cell_put hfull hc hd es⟩
    rw [hfull]
    exact Coord.bijOn_index_count chart.size

/-- A chart that was used for one word before it was loaded with two. -/
theorem bijOn_index_of_two_words :
    let g := RuleSet.ofText "np ==> DT, +NN . @START np ."
    let s : Sentence := ⟨"", [.tagged "the" "the" "DT", .tagged "cat" "cat" "NN"], []⟩
    let s' : Sentence := ⟨"", [.tagged "dogs" "dog" "NNS"], []⟩
    let chart := run g {} [.load s' 0, .parse, .load s 0, .parse]
    (⟨1, 0⟩ : Coord).within chart.size ∧
      chart.table.toList = [chart.cell ⟨0, 0⟩, chart.cell ⟨0, 1⟩, chart.cell ⟨1, 0⟩] ∧
      chart.table[2]? = some [⟨⟨"np", ["DT", "NN"], some 1⟩, [⟨0, 0⟩, ⟨0, 1⟩]⟩] := by
  intro g s s'
  have hcharts := bijOn_index.2 g [.load s' 0, .parse, .load s 0, .parse]
  have hsize : (run g {} [.load s' 0, .parse, .load s 0, .parse]).size = 2 := by decide +kernel
  have htop : (run g {} [.load s' 0, .parse, .load s 0, .parse]).cell ⟨1, 0⟩ =
      [⟨⟨"np", ["DT", "NN"], some 1⟩, [⟨0, 0⟩, ⟨0, 1⟩]⟩] := by decide +kernel
  generalize run g {} [.load s' 0, .parse, .load s 0, .parse] = chart at hcharts hsize htop ⊢
  obtain ⟨-, htable, hcell, -⟩ := hcharts
  rw [hsize] at htable hcell
  intro chart
  exact ⟨hsize ▸ rfl, htable, htop ▸ hcell ⟨1, 0⟩ rfl⟩

end Chart

end Chunker
