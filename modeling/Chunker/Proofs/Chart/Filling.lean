import Chunker.Chart.Parse
import Chunker.Proofs.Chart.Addressing
import Chunker.Proofs.Position

/-!
# The cells of a filled chart

Filling a chart writes its cells one by one, each from cells that stand before it. The cells of
the bottom row stay as they were loaded. Every other cell of the filled chart is the combination
of the cells of the filled chart itself: what a cell is made from has its final content by the
time it is read. Parsing adds at most one edge to the filled chart, at the end of the top cell.

## Main definitions

* `Chart.addedRoot?` : the edge that parsing adds to the top cell, if it adds one.

## Main results

* `Chart.cell_load` : the cell of a word in a loaded chart.
* `Chart.cell_fill_of_span_eq_zero`, `Chart.cell_fill_of_span_pos` : the cells of a filled chart.
* `Chart.fill_congr` : a filled chart depends on the bottom row only.
* `Chart.cell_parse` : the cells of a parsed chart.
-/

namespace Chunker

/-! ### Divisions of a cell -/

theorem Coord.mem_splits {c l r : Coord} :
    (l, r) ∈ c.splits ↔ l.start = c.start ∧ r.start = l.stop ∧ r.stop = c.stop := by
  obtain ⟨m, i⟩ := c
  obtain ⟨a, j⟩ := l
  obtain ⟨b, k⟩ := r
  simp only [splits, stop, List.mem_map, List.mem_range, Prod.mk.injEq, mk.injEq]
  constructor
  · rintro ⟨a', ha, ⟨rfl, rfl⟩, rfl, rfl⟩
    omega
  · rintro ⟨rfl, rfl, h⟩
    exact ⟨a, by omega, ⟨rfl, rfl⟩, by omega, by omega⟩

theorem Coord.span_lt_of_mem_splits {c l r : Coord} (h : (l, r) ∈ c.splits) :
    l.span < c.span ∧ r.span < c.span := by
  rw [mem_splits] at h
  simp only [stop] at h
  omega

theorem Coord.within_of_mem_splits {c l r : Coord} {n : Nat} (h : (l, r) ∈ c.splits)
    (hc : c.within n) : l.within n ∧ r.within n := by
  rw [mem_splits] at h
  simp only [within_iff_stop, stop] at *
  omega

namespace Chart

variable {g : RuleSet} {chart : Chart}

/-! ### Loading -/

theorem size_load (g : RuleSet) (s : Sentence) (k : Nat) : (load g s k).size = s.size :=
  rfl

theorem size_load_eq_zero_iff {s : Sentence} {k : Nat} :
    (load g s k).size = 0 ↔ s.words = [] :=
  List.length_eq_zero_iff

private theorem le_count (n : Nat) : n ≤ Coord.count n := by
  cases n with
  | zero => exact Nat.zero_le _
  | succ m =>
    have h : Coord.rowOffset (m + 1) 1 ≤ Coord.rowOffset (m + 1) (m + 1) :=
      Coord.rowOffset_mono (by omega) le_rfl
    rwa [Coord.rowOffset_one, Coord.rowOffset_self] at h

theorem isFull_load (g : RuleSet) (s : Sentence) (k : Nat) : (load g s k).IsFull := by
  have := le_count s.size
  simp only [IsFull, load, List.size_toArray, List.length_append, List.length_mapIdx,
    List.length_replicate]
  rw [show s.words.length = s.size from rfl]
  omega

/-- A loaded chart holds the seeds of a word in the cell of the word. -/
theorem cell_load {s : Sentence} {j : Nat} {w : Word} (h : s.words[j]? = some w) (k : Nat) :
    (load g s k).cell ⟨0, j⟩ = seeds g k w ⟨0, j⟩ := by
  have hj : j < (s.words.mapIdx fun i w => seeds g k w ⟨0, i⟩).length := by
    rw [List.length_mapIdx]
    exact (List.getElem?_eq_some_iff.1 h).1
  have hindex : Coord.index (load g s k).size ⟨0, j⟩ = j := by simp [Coord.index]
  simp only [cell, hindex, Array.getD_eq_getD_getElem?]
  simp only [load, List.getElem?_toArray, List.getElem?_append_left hj, List.getElem?_mapIdx, h,
    Option.map_some, Option.getD_some]

theorem cell_load_of_span_pos {s : Sentence} {c : Coord} (hc : c.within s.size) (h : 0 < c.span)
    (k : Nat) : (load g s k).cell c = [] := by
  have hspan := (Coord.within_iff.1 hc).1.le
  have hmono : Coord.rowOffset s.size 1 ≤ Coord.rowOffset s.size c.span :=
    Coord.rowOffset_mono h hspan
  have hlength : (s.words.mapIdx fun i w => seeds g k w ⟨0, i⟩).length ≤ c.index s.size := by
    rw [List.length_mapIdx, Coord.index_eq hspan]
    exact ((Coord.rowOffset_one s.size).symm.trans_le hmono).trans (Nat.le_add_right _ _)
  simp only [cell, Array.getD_eq_getD_getElem?]
  simp only [load, List.getElem?_toArray, List.getElem?_append_right hlength,
    List.getElem?_replicate]
  split <;> rfl

/-! ### Filling one cell -/

theorem size_fillCell (g : RuleSet) (chart : Chart) (c : Coord) :
    (chart.fillCell g c).size = chart.size := by
  rw [fillCell]
  split <;> rfl

theorem IsFull.fillCell (h : chart.IsFull) (c : Coord) : (chart.fillCell g c).IsFull := by
  rw [Chart.fillCell]
  split
  · exact h
  · exact h.put c _

/-- Filling a cell leaves the others and the bottom row. -/
theorem cell_fillCell_of_ne {c d : Coord} (hc : c.within chart.size) (hd : d.within chart.size)
    (h : d ≠ c ∨ d.span = 0) : (chart.fillCell g c).cell d = chart.cell d := by
  rw [fillCell]
  split
  · rfl
  · rename_i hspan
    refine cell_put_of_ne hc hd ?_ _
    rintro rfl
    exact h.elim (· rfl) hspan

theorem cell_fillCell_self (h : chart.IsFull) {c : Coord} (hc : c.within chart.size)
    (hspan : 0 < c.span) : (chart.fillCell g c).cell c = chart.combine g c := by
  rw [fillCell, if_neg (by omega)]
  exact cell_put_self h hc _

/-! ### Filling several cells -/

theorem size_foldl_fillCell (cs : List Coord) (chart : Chart) :
    (cs.foldl (fillCell g) chart).size = chart.size := by
  induction cs generalizing chart with
  | nil => rfl
  | cons c cs ih => rw [List.foldl_cons, ih, size_fillCell]

theorem IsFull.foldl_fillCell (h : chart.IsFull) (cs : List Coord) :
    (cs.foldl (Chart.fillCell g) chart).IsFull := by
  induction cs generalizing chart with
  | nil => exact h
  | cons c cs ih => exact ih (h.fillCell c)

theorem cell_foldl_fillCell {cs : List Coord} {d : Coord}
    (hcs : ∀ c ∈ cs, c.within chart.size) (hd : d.within chart.size)
    (h : d ∉ cs ∨ d.span = 0) : (cs.foldl (fillCell g) chart).cell d = chart.cell d := by
  induction cs generalizing chart with
  | nil => rfl
  | cons c cs ih =>
    have hc : c.within chart.size := hcs c List.mem_cons_self
    have hne : d ≠ c ∨ d.span = 0 := h.imp_left fun h' he => h' (he ▸ List.mem_cons_self)
    have hsize : (chart.fillCell g c).size = chart.size := size_fillCell g chart c
    rw [List.foldl_cons, ih, cell_fillCell_of_ne hc hd hne]
    · rw [hsize]
      exact fun c' hc' => hcs c' (List.mem_cons_of_mem c hc')
    · rw [hsize]
      exact hd
    · exact h.imp_left fun h' hm => h' (List.mem_cons_of_mem c hm)

/-! ### Filling the chart -/

theorem size_fill (g : RuleSet) (chart : Chart) : (chart.fill g).size = chart.size :=
  size_foldl_fillCell _ _

theorem IsFull.fill (h : chart.IsFull) : (chart.fill g).IsFull :=
  h.foldl_fillCell _

private theorem extend_congr {chart' : Chart} {right : Coord}
    (h : chart.cell right = chart'.cell right) (target : Coord) (e : Edge) :
    chart.extend g target right e = chart'.extend g target right e := by
  have hmatches (p : Category) : chart.matchesAt g p right = chart'.matchesAt g p right := by
    rw [matchesAt, matchesAt, complete, complete, h]
  rw [extend, extend]
  split
  · rfl
  · rw [hmatches]

/-- The combination of a cell depends on the cells of the rows below it only. -/
theorem combine_congr {chart' : Chart} {c : Coord} (hc : c.within chart.size)
    (h : ∀ d : Coord, d.within chart.size → d.span < c.span → chart.cell d = chart'.cell d) :
    chart.combine g c = chart'.combine g c := by
  rw [combine, combine]
  refine List.flatMap_congr fun ⟨l, r⟩ hlr => ?_
  obtain ⟨hlspan, hrspan⟩ := Coord.span_lt_of_mem_splits hlr
  obtain ⟨hlin, hrin⟩ := Coord.within_of_mem_splits hlr hc
  simp only [h l hlin hlspan]
  exact List.flatMap_congr fun e _ => extend_congr (h r hrin hrspan) c e

/-- Filling leaves the bottom row. -/
theorem cell_fill_of_span_eq_zero {c : Coord} (hc : c.within chart.size) (h : c.span = 0) :
    (chart.fill g).cell c = chart.cell c :=
  cell_foldl_fillCell (fun _ => Coord.mem_all.1) hc (.inr h)

/-- A cell above the bottom row of a filled chart is the combination of cells of the filled
chart. -/
theorem cell_fill_of_span_pos (hf : chart.IsFull) {c : Coord} (hc : c.within chart.size)
    (h : 0 < c.span) : (chart.fill g).cell c = (chart.fill g).combine g c := by
  obtain ⟨before, after, hall⟩ := List.append_of_mem (Coord.mem_all.2 hc)
  have hsorted := Coord.pairwise_all chart.size
  have hwithin : ∀ d ∈ Coord.all chart.size, d.within chart.size := fun _ => Coord.mem_all.1
  rw [hall] at hsorted hwithin
  have hafter : ∀ d ∈ after, Coord.Precedes c d :=
    (List.pairwise_cons.1 (List.pairwise_append.1 hsorted).2.1).1
  -- The chart at the time at which the cell is due.
  let due := before.foldl (fillCell g) chart
  have hsize : due.size = chart.size := size_foldl_fillCell before chart
  have hfill : chart.fill g = after.foldl (fillCell g) (due.fillCell g c) := by
    rw [fill, hall, List.foldl_append, List.foldl_cons]
  have hlater : ∀ d ∈ after, d.within due.size := fun d hd =>
    hsize ▸ hwithin d (List.mem_append_right _ (List.mem_cons_of_mem c hd))
  have hdue : c.within due.size := hsize ▸ hc
  have hnext : (due.fillCell g c).size = due.size := size_fillCell g due c
  have hcell : (chart.fill g).cell c = due.combine g c := by
    have hnot : c ∉ after := fun hm => by
      have := hafter c hm
      simp only [Coord.Precedes] at this
      omega
    rw [hfill, cell_foldl_fillCell (by rwa [hnext]) (by rwa [hnext]) (.inl hnot)]
    exact cell_fillCell_self (hf.foldl_fillCell before) hdue h
  rw [hcell]
  refine combine_congr hdue fun d hd hspan => ?_
  have hne : d ≠ c := fun he => (he ▸ hspan).false
  have hnot : d ∉ after := fun hm => by
    have := hafter d hm
    simp only [Coord.Precedes] at this
    omega
  rw [hfill, cell_foldl_fillCell (by rwa [hnext]) (by rwa [hnext]) (.inl hnot),
    cell_fillCell_of_ne hdue hd (.inl hne)]

/-- Filling reads nothing but the bottom row. -/
theorem fill_congr {chart' : Chart} (hf : chart.IsFull) (hf' : chart'.IsFull)
    (hsize : chart.size = chart'.size)
    (h : ∀ c : Coord, c.within chart.size → c.span = 0 → chart.cell c = chart'.cell c) :
    chart.fill g = chart'.fill g := by
  have hcell (span : Nat) : ∀ c : Coord, c.within chart.size → c.span = span →
      (chart.fill g).cell c = (chart'.fill g).cell c := by
    induction span using Nat.strong_induction_on with
    | _ span ih =>
      rintro c hc rfl
      rcases Nat.eq_zero_or_pos c.span with hspan | hspan
      · rw [cell_fill_of_span_eq_zero hc hspan, cell_fill_of_span_eq_zero (hsize ▸ hc) hspan]
        exact h c hc hspan
      · rw [cell_fill_of_span_pos hf hc hspan, cell_fill_of_span_pos hf' (hsize ▸ hc) hspan]
        have hc' : c.within (chart.fill g).size := (size_fill g chart).symm ▸ hc
        refine combine_congr hc' fun d hd hlt => ih d.span hlt d ?_ rfl
        rwa [size_fill] at hd
  refine eq_of_cell_eq hf.fill hf'.fill (by rw [size_fill, size_fill, hsize]) fun c hc => ?_
  rw [size_fill] at hc
  exact hcell c.span c hc rfl

/-! ### Parsing -/

/-- The edge that parsing adds to the top cell, if it adds one. -/
def addedRoot? (g : RuleSet) (chart : Chart) : Option Edge :=
  if chart.size = 0 then none
  else
    match (chart.fill g).root? g with
    | some _ => none
    | none => ((chart.fill g).forcedRoot g).toOption

/-- The parsed chart of a tag sequence of a sentence. -/
abbrev parsed (g : RuleSet) (s : Sentence) (k : Nat) : Chart :=
  ((load g s k).parse g).2

theorem size_parse (g : RuleSet) (chart : Chart) : (chart.parse g).2.size = chart.size := by
  by_cases hsize : chart.size = 0
  · simp only [parse, if_pos hsize]
  · simp only [parse, if_neg hsize]
    cases (chart.fill g).root? g with
    | some e => exact size_fill g chart
    | none => cases (chart.fill g).forcedRoot g <;> exact size_fill g chart

theorem IsFull.parse (h : chart.IsFull) : (chart.parse g).2.IsFull := by
  by_cases hsize : chart.size = 0
  · simpa only [Chart.parse, if_pos hsize] using h
  · simp only [Chart.parse, if_neg hsize]
    cases (chart.fill g).root? g with
    | some e => exact h.fill
    | none =>
      cases (chart.fill g).forcedRoot g with
      | error err => exact h.fill
      | ok e => exact h.fill.put _ _

theorem top_fill (g : RuleSet) (chart : Chart) : (chart.fill g).top = chart.top := by
  rw [top, top, size_fill]

theorem start_top (chart : Chart) : chart.top.start = 0 :=
  rfl

theorem stop_top (h : chart.size ≠ 0) : chart.top.stop = chart.size := by
  simp only [Coord.stop, top]
  omega

theorem within_top (h : chart.size ≠ 0) : chart.top.within chart.size := by
  simp only [Coord.within_iff, top]
  omega

/-- The cells of a parsed chart are those of the filled one, with the added root at the end of
the top cell. -/
theorem cell_parse (hf : chart.IsFull) {c : Coord} (hc : c.within chart.size) :
    (chart.parse g).2.cell c =
      (chart.fill g).cell c ++ if c = chart.top then (chart.addedRoot? g).toList else [] := by
  have hsize : chart.size ≠ 0 := fun h => by
    rw [Coord.within_iff] at hc
    omega
  have htop : (chart.fill g).top.within (chart.fill g).size :=
    within_top (by rwa [size_fill])
  simp only [parse, addedRoot?, if_neg hsize]
  cases (chart.fill g).root? g with
  | some e => simp
  | none =>
    cases (chart.fill g).forcedRoot g with
    | error err => simp [Except.toOption]
    | ok e =>
      by_cases hct : c = chart.top
      · subst hct
        rw [← top_fill g chart]
        simp [cell_put_self hf.fill htop, Except.toOption]
      · have hne : c ≠ (chart.fill g).top := by rwa [top_fill]
        have hc' : c.within (chart.fill g).size := by rwa [size_fill]
        simp [cell_put_of_ne htop hc' hne, hct]

theorem cell_fill_subset_cell_parse (hf : chart.IsFull) {c : Coord} (hc : c.within chart.size) :
    (chart.fill g).cell c ⊆ (chart.parse g).2.cell c := by
  rw [cell_parse hf hc]
  exact List.subset_append_left _ _

/-- An edge of a parsed chart stands at the same place of the filled one, or it is the added root
and stands after all edges of the filled top cell. -/
theorem cell_parse_cases (hf : chart.IsFull) {c : Coord} (hc : c.within chart.size)
    {before after : List Edge} {e : Edge} (he : (chart.parse g).2.cell c = before ++ e :: after) :
    (∃ after', (chart.fill g).cell c = before ++ e :: after') ∨
      c = chart.top ∧ chart.addedRoot? g = some e ∧ before = (chart.fill g).cell c := by
  rw [cell_parse hf hc] at he
  rcases append_eq_append_cons he with hfill | ⟨before', rfl, hadded⟩
  · exact .inl hfill
  · by_cases htop : c = chart.top
    · rw [if_pos htop] at hadded
      cases hr : chart.addedRoot? g with
      | none => simp [hr] at hadded
      | some r =>
        rw [hr, Option.toList_some, List.singleton_eq_append_iff] at hadded
        rcases hadded with ⟨rfl, hcons⟩ | ⟨-, hnil⟩
        · obtain rfl := (List.cons.inj hcons).1
          exact .inr ⟨htop, rfl, List.append_nil _⟩
        · cases hnil
    · rw [if_neg htop] at hadded
      simp at hadded

theorem parse_congr {chart' : Chart} (hsize : chart.size = chart'.size)
    (h : chart.fill g = chart'.fill g) (hne : chart.size ≠ 0) :
    chart.parse g = chart'.parse g := by
  simp only [parse, if_neg hne, if_neg (hsize ▸ hne), h]

/-- The outcome of parsing: there has to be a root in the top cell, or one has to be added. -/
theorem parse_ok_iff :
    (chart.parse g).1 = .ok () ↔
      chart.size ≠ 0 ∧
        (((chart.fill g).root? g).isSome ∨ (chart.addedRoot? g).isSome) := by
  by_cases hsize : chart.size = 0
  · simp [parse, hsize]
  · simp only [parse, addedRoot?, ne_eq, hsize, if_false, not_false_eq_true, true_and]
    cases (chart.fill g).root? g with
    | some e => simp
    | none => cases (chart.fill g).forcedRoot g <;> simp [Except.toOption]

theorem addedRoot?_eq_none_of_root? {e : Edge} (hroot : (chart.fill g).root? g = some e) :
    chart.addedRoot? g = none := by
  rw [addedRoot?, hroot]
  exact ite_self none

theorem exists_addedRoot?_eq_some (hok : (chart.parse g).1 = .ok ())
    (hroot : (chart.fill g).root? g = none) : ∃ e, chart.addedRoot? g = some e := by
  rcases (parse_ok_iff.1 hok).2 with hsome | hadded
  · rw [hroot] at hsome
    cases hsome
  · exact Option.isSome_iff_exists.1 hadded

end Chart

end Chunker
