import Chunker.Chart.Cover
import Chunker.Proofs.Chart.Preference
import Chunker.Proofs.Chart.Tiling

/-!
# Covers of regions

A region is the words between two positions. The cell that is taken first for a region is the
foremost one: no cell of the region with a complete edge is longer, no complete edge in a cell as
long is preferred to the best edge of the cell, and if one is as good, it does not stand further
left. The cover of the region is this cell between the covers of what it leaves on either side.

So the cells of a cover are consecutive over the region, and each holds a complete edge. A region
has no cover if a word in it stands in no cell with a complete edge. The error then names the
first such words: as many as stand next to one another.

## Main definitions

* `Coord.Between` : the cells of a region.
* `Chart.Foremost` : the cell that is taken for a region, with its best edge.
* `FirstGap` : the first words of a region of which something does not hold.
* `Chart.coverUnder` : the cover of the words of a cell.

## Main results

* `Chart.exists_foremost_of_highest?` : the cell that is taken is the foremost one.
* `Chart.exists_of_cover_eq_ok` : a cover is made from the cell that is taken and two covers.
* `Chart.consecutive_of_cover` : the cells of a cover are consecutive.
* `Chart.exists_firstGap_of_cover_eq_error` : what the error of a cover names.
* `Chart.coverUnder_eq` : a cell is covered as the words from its first to its last one are.
-/

namespace Chunker

/-- Holds of a cell whose words stand between two positions. -/
def Coord.Between (lo hi : Nat) (c : Coord) : Prop :=
  lo ≤ c.start ∧ c.stop ≤ hi

namespace Chart

variable {g : RuleSet} {chart : Chart} {lo hi : Nat}

/-! ### The cell that is taken -/

theorem mem_candidates {span : Nat} {x : Coord × Edge} :
    x ∈ chart.candidates lo hi span ↔
      x.1.span = span ∧ x.1.Between lo hi ∧ x.2 ∈ chart.complete x.1 := by
  obtain ⟨⟨a, i⟩, e⟩ := x
  simp only [candidates, List.mem_flatMap, List.mem_range, List.mem_map, Prod.mk.injEq,
    Coord.mk.injEq, Coord.Between, Coord.stop]
  constructor
  · rintro ⟨d, hd, _, he, ⟨rfl, rfl⟩, rfl⟩
    exact ⟨rfl, by omega, he⟩
  · rintro ⟨rfl, ⟨hlo, hhi⟩, he⟩
    obtain ⟨d, rfl⟩ := Nat.exists_eq_add_of_le hlo
    exact ⟨d, by omega, e, he, ⟨rfl, rfl⟩, rfl⟩

theorem pairwise_candidates (chart : Chart) (lo hi span : Nat) :
    (chart.candidates lo hi span).Pairwise fun x y => x.1.start ≤ y.1.start := by
  refine List.pairwise_flatMap.2 ⟨fun d _ => ?_, ?_⟩
  · exact List.pairwise_map.2 (List.pairwise_of_forall fun _ _ => le_rfl)
  · refine List.pairwise_lt_range.imp fun h x hx y hy => ?_
    obtain ⟨_, -, rfl⟩ := List.mem_map.1 hx
    obtain ⟨_, -, rfl⟩ := List.mem_map.1 hy
    exact Nat.add_le_add_left h.le lo

/-- Holds of the cell of a region that goes before all others, and of its best edge: no cell of the
region with a complete edge is longer, no edge of the row is preferred, and none further left in the
row is as good. -/
structure Foremost (g : RuleSet) (chart : Chart) (lo hi : Nat) (c : Coord) (e : Edge) :
    Prop where
  between : c.Between lo hi
  mem : e ∈ chart.complete c
  highest : ∀ d : Coord, d.Between lo hi → chart.complete d ≠ [] → d.span ≤ c.span
  best : ∀ d : Coord, d.Between lo hi → d.span = c.span → ∀ e' ∈ chart.complete d,
    ¬ g.prefers e' e
  leftmost : ∀ d : Coord, d.Between lo hi → d.span = c.span → d.start < c.start →
    ∀ e' ∈ chart.complete d, g.prefers e e'

private theorem candidates_eq_nil_iff {span : Nat} :
    chart.candidates lo hi span = [] ↔
      ∀ c : Coord, c.Between lo hi → c.span = span → chart.complete c = [] := by
  simp only [List.eq_nil_iff_forall_not_mem, mem_candidates]
  constructor
  · exact fun h c hc hspan e he => h (c, e) ⟨hspan, hc, he⟩
  · exact fun h x hx => h x.1 hx.2.1 hx.1 x.2 hx.2.2

theorem highest?_eq_none_iff :
    chart.highest? g lo hi = none ↔ ∀ c : Coord, c.Between lo hi → chart.complete c = [] := by
  simp only [highest?, List.findSome?_eq_none_iff, List.mem_reverse, List.mem_range,
    Option.map_eq_none_iff, RuleSet.bestOn_eq_none_iff, candidates_eq_nil_iff]
  constructor
  · intro h c hc
    refine h c.span ?_ c hc rfl
    simp only [Coord.Between, Coord.stop] at hc
    omega
  · exact fun h _ _ c hc _ => h c hc

/-- The cell that is taken for a region holds the best edge of its row, and above its row there is
no complete edge in the region. -/
theorem exists_bestOn_of_highest? {c : Coord} (h : chart.highest? g lo hi = some c) :
    ∃ e, g.bestOn Prod.snd (chart.candidates lo hi c.span) = some (c, e) ∧
      ∀ d : Coord, d.Between lo hi → c.span < d.span → chart.complete d = [] := by
  obtain ⟨above, span, below, hrows, hrow, hnone⟩ := List.findSome?_eq_some_iff.1 h
  obtain ⟨⟨c', e⟩, hbest, rfl⟩ := Option.map_eq_some_iff.1 hrow
  obtain ⟨rfl, -, -⟩ := mem_candidates.1 (RuleSet.mem_of_bestOn hbest)
  dsimp only at *
  refine ⟨e, hbest, fun d hd hlt => ?_⟩
  have hsorted : (above ++ c'.span :: below).Pairwise (· > ·) := by
    rw [← hrows]
    exact List.pairwise_reverse.2 List.pairwise_lt_range
  have hmem : d.span ∈ above ++ c'.span :: below := by
    rw [← hrows, List.mem_reverse, List.mem_range]
    simp only [Coord.Between, Coord.stop] at hd
    omega
  rcases List.mem_append.1 hmem with habove | hrest
  · have hnil := hnone d.span habove
    rw [Option.map_eq_none_iff, RuleSet.bestOn_eq_none_iff, candidates_eq_nil_iff] at hnil
    exact hnil d hd rfl
  · -- Rows from the row of the cell on are not longer.
    rcases List.mem_cons.1 hrest with heq | hbelow
    · exact absurd heq hlt.ne'
    · have hgt := (List.pairwise_cons.1 (List.pairwise_append.1 hsorted).2.1).1 _ hbelow
      exact absurd hlt hgt.not_gt

/-- The cell that is taken for a region is the foremost one. -/
theorem exists_foremost_of_highest? {c : Coord} (h : chart.highest? g lo hi = some c) :
    ∃ e, Foremost g chart lo hi c e := by
  obtain ⟨e, hbest, hnone⟩ := exists_bestOn_of_highest? h
  obtain ⟨-, hbetween, he⟩ := mem_candidates.1 (RuleSet.mem_of_bestOn hbest)
  obtain ⟨before, after, hsplit, hlt, hle⟩ := RuleSet.bestOn_eq_some_iff.1 hbest
  have hsorted := pairwise_candidates chart lo hi c.span
  rw [hsplit] at hsorted
  have hcases (d : Coord) (hd : d.Between lo hi) (hspan : d.span = c.span) (e' : Edge)
      (he' : e' ∈ chart.complete d) :
      (d, e') ∈ before ∨ (d, e') = (c, e) ∨ (d, e') ∈ after := by
    rw [← List.mem_cons, ← List.mem_append, ← hsplit]
    exact mem_candidates.2 ⟨hspan, hd, he'⟩
  refine ⟨e, hbetween, he, fun d hd hne => ?_, fun d hd hspan e' he' => ?_,
    fun d hd hspan hstart e' he' => ?_⟩
  · by_contra hspan
    exact hne (hnone d hd (Nat.lt_of_not_le hspan))
  · rw [RuleSet.prefers_iff_rank_lt, not_lt]
    rcases hcases d hd hspan e' he' with hbefore | heq | hafter
    · exact (hlt _ hbefore).le
    · rw [(Prod.mk.inj heq).2]
    · exact hle _ hafter
  · rw [RuleSet.prefers_iff_rank_lt]
    rcases hcases d hd hspan e' he' with hbefore | heq | hafter
    · exact hlt _ hbefore
    · rw [(Prod.mk.inj heq).1] at hstart
      exact absurd hstart (lt_irrefl _)
    · have hle' := (List.pairwise_cons.1 (List.pairwise_append.1 hsorted).2.1).1 _ hafter
      exact absurd hle' hstart.not_ge

theorem complete_ne_nil_of_highest? {c : Coord} (h : chart.highest? g lo hi = some c) :
    chart.complete c ≠ [] := by
  obtain ⟨e, he⟩ := exists_foremost_of_highest? h
  exact List.ne_nil_of_mem he.mem

/-! ### Covers -/

/-- The cover of a region with words is the cell that is taken for it, between the covers of what
lies left and right of this cell. -/
theorem exists_of_cover_eq_ok {cs : List Coord} (hlt : lo < hi)
    (h : chart.cover g lo hi = .ok cs) :
    ∃ c left right, chart.highest? g lo hi = some c ∧ chart.cover g lo c.start = .ok left ∧
      chart.cover g c.stop hi = .ok right ∧ cs = left ++ c :: right := by
  rw [cover, if_neg hlt.not_ge] at h
  split at h
  · cases h
  · rename_i c hc
    split at h
    · cases h
    · rename_i left hleft
      split at h
      · cases h
      · rename_i right hright
        exact ⟨c, left, right, hc, hleft, hright, (Except.ok.inj h).symm⟩

theorem exists_cover_eq_ok (h : ∀ j, lo ≤ j → j < hi → chart.complete ⟨0, j⟩ ≠ []) :
    ∃ cs, chart.cover g lo hi = .ok cs := by
  fun_induction cover g chart lo hi with
  | case1 => exact ⟨[], rfl⟩
  | case2 lo hi hlt hnone =>
    have hlo := h lo le_rfl (by omega)
    exact absurd (highest?_eq_none_iff.1 hnone ⟨0, lo⟩ ⟨le_rfl, Nat.lt_of_not_le hlt⟩) hlo
  | case3 lo hi hlt c hc err hl ihl =>
    obtain ⟨hlo, hhi⟩ := highest?_within hc
    have hlt' := c.start_lt_stop
    obtain ⟨left, hleft⟩ := ihl fun j hj hj' => h j hj (by omega)
    rw [hl] at hleft
    cases hleft
  | case4 lo hi hlt c hc left hl err hr ihl ihr =>
    obtain ⟨hlo, hhi⟩ := highest?_within hc
    have hlt' := c.start_lt_stop
    obtain ⟨right, hright⟩ := ihr fun j hj hj' => h j (by omega) hj'
    rw [hr] at hright
    cases hright
  | case5 lo hi hlt c hc left hl right hr ihl ihr => exact ⟨_, rfl⟩

/-- A region with words, each of which has a complete edge, is covered from the foremost cell. -/
theorem exists_foremost_of_lt (hlt : lo < hi)
    (h : ∀ j, lo ≤ j → j < hi → chart.complete ⟨0, j⟩ ≠ []) :
    ∃ c e left right, Foremost g chart lo hi c e ∧ chart.cover g lo c.start = .ok left ∧
      chart.cover g c.stop hi = .ok right ∧ chart.cover g lo hi = .ok (left ++ c :: right) := by
  obtain ⟨cs, hcs⟩ := exists_cover_eq_ok (g := g) h
  obtain ⟨c, left, right, hc, hleft, hright, rfl⟩ := exists_of_cover_eq_ok hlt hcs
  obtain ⟨e, he⟩ := exists_foremost_of_highest? hc
  exact ⟨c, e, left, right, he, hleft, hright, hcs⟩

/-- The cells of a cover are consecutive, and each holds a complete edge. -/
theorem consecutive_of_cover {cs : List Coord} (hle : lo ≤ hi)
    (h : chart.cover g lo hi = .ok cs) :
    Coord.Consecutive lo hi cs ∧ ∀ c ∈ cs, chart.complete c ≠ [] := by
  fun_induction cover g chart lo hi generalizing cs with
  | case1 lo hi hhi =>
    obtain rfl := Except.ok.inj h
    exact ⟨Nat.le_antisymm hle hhi, fun c hc => absurd hc List.not_mem_nil⟩
  | case2 => cases h
  | case3 => cases h
  | case4 => cases h
  | case5 lo hi _ c hc left hl right hr ihl ihr =>
    obtain rfl := Except.ok.inj h
    obtain ⟨hlo, hhi⟩ := highest?_within hc
    obtain ⟨hcl, hel⟩ := ihl hlo hl
    obtain ⟨hcr, her⟩ := ihr hhi hr
    refine ⟨Coord.consecutive_append.2 ⟨c.start, hcl, rfl, hcr⟩, fun d hd => ?_⟩
    rcases List.mem_append.1 hd with hd | hd
    · exact hel d hd
    · rcases List.mem_cons.1 hd with rfl | hd
      · exact complete_ne_nil_of_highest? hc
      · exact her d hd

end Chart

/-! ### Gaps -/

/-- Holds of the first words of a region, as many as stand next to one another, of which something
does not hold. -/
structure FirstGap (p : Nat → Prop) (lo hi : Nat) (r : Coord) : Prop where
  between : r.Between lo hi
  before : ∀ j, lo ≤ j → j < r.start → p j
  inside : ∀ j, r.start ≤ j → j < r.stop → ¬ p j
  next : r.stop < hi → p r.stop

namespace FirstGap

variable {p : Nat → Prop} {lo hi : Nat} {r r' : Coord}

private theorem start_le (h : FirstGap p lo hi r) (h' : FirstGap p lo hi r') :
    r.start ≤ r'.start := by
  by_contra hlt
  exact h'.inside r'.start le_rfl r'.start_lt_stop
    (h.before r'.start h'.between.1 (Nat.lt_of_not_le hlt))

private theorem stop_le (h : FirstGap p lo hi r) (h' : FirstGap p lo hi r') :
    r.stop ≤ r'.stop := by
  by_contra hlt
  have hstart := h.start_le h'
  have hlt' := r'.start_lt_stop
  have hhi := h.between.2
  exact h.inside r'.stop (by omega) (by omega) (h'.next (by omega))

theorem unique (h : FirstGap p lo hi r) (h' : FirstGap p lo hi r') : r = r' := by
  have hstart := Nat.le_antisymm (h.start_le h') (h'.start_le h)
  have hstop := Nat.le_antisymm (h.stop_le h') (h'.stop_le h)
  obtain ⟨a, i⟩ := r
  obtain ⟨b, j⟩ := r'
  simp only [Coord.stop, Coord.mk.injEq] at *
  omega

end FirstGap

namespace Chart

variable {g : RuleSet} {chart : Chart} {lo hi : Nat}

/-- The error of a cover names the first gap of the region, where a word belongs to a gap unless it
stands in a cell with a complete edge. -/
theorem exists_firstGap_of_cover_eq_error {p : Nat → Prop} {err : ParseError}
    (hword : ∀ j, lo ≤ j → j < hi → p j → chart.complete ⟨0, j⟩ ≠ [])
    (hcell : ∀ c : Coord, c.Between lo hi → chart.complete c ≠ [] →
      ∀ j, c.start ≤ j → j < c.stop → p j)
    (h : chart.cover g lo hi = .error err) : ∃ r, err = .uncovered r ∧ FirstGap p lo hi r := by
  fun_induction cover g chart lo hi generalizing err with
  | case1 => cases h
  | case2 lo hi hlt hnone =>
    obtain rfl := Except.error.inj h
    have hstop : (⟨hi - lo - 1, lo⟩ : Coord).stop = hi := by
      simp only [Coord.stop]
      omega
    refine ⟨_, rfl, ⟨le_rfl, hstop.le⟩, fun j hj hj' => absurd hj hj'.not_ge,
      fun j hj hj' hp => ?_, fun hnext => absurd hstop hnext.ne⟩
    rw [hstop] at hj'
    exact hword j hj hj' hp (highest?_eq_none_iff.1 hnone ⟨0, j⟩ ⟨hj, hj'⟩)
  | case3 lo hi hlt c hc err' hl ihl =>
    obtain rfl := Except.error.inj h
    obtain ⟨hlo, hhi⟩ := highest?_within hc
    have hlt' := c.start_lt_stop
    obtain ⟨r, rfl, hgap⟩ := ihl (fun j hj hj' => hword j hj (by omega))
      (fun d hd => hcell d ⟨hd.1, hd.2.trans (by omega)⟩) hl
    refine ⟨r, rfl, ⟨hgap.between.1, hgap.between.2.trans (by omega)⟩, hgap.before, hgap.inside,
      fun _ => ?_⟩
    -- A gap that reaches up to the cell ends there, as the cell holds a complete edge.
    rcases hgap.between.2.lt_or_eq with hnext | hnext
    · exact hgap.next hnext
    · rw [hnext]
      exact hcell c ⟨hlo, hhi⟩ (complete_ne_nil_of_highest? hc) c.start le_rfl hlt'
  | case4 lo hi hlt c hc left hl err' hr ihl ihr =>
    obtain rfl := Except.error.inj h
    obtain ⟨hlo, hhi⟩ := highest?_within hc
    have hlt' := c.start_lt_stop
    obtain ⟨r, rfl, hgap⟩ := ihr (fun j hj => hword j (by omega))
      (fun d hd => hcell d ⟨by have := hd.1; omega, hd.2⟩) hr
    refine ⟨r, rfl, ⟨by have := hgap.between.1; omega, hgap.between.2⟩, fun j hj hj' => ?_,
      hgap.inside, hgap.next⟩
    rcases Nat.lt_or_ge j c.start with hj₁ | hj₁
    · -- What lies left of the cell has a cover.
      obtain ⟨hcs, hne⟩ := consecutive_of_cover hlo hl
      obtain ⟨d, hd, hdj, hdj'⟩ := hcs.exists_mem hj hj₁
      obtain ⟨hlo', hhi'⟩ := hcs.bounds hd
      exact hcell d ⟨hlo', hhi'.trans (by omega)⟩ (hne d hd) j hdj hdj'
    · rcases Nat.lt_or_ge j c.stop with hj₂ | hj₂
      · exact hcell c ⟨hlo, hhi⟩ (complete_ne_nil_of_highest? hc) j hj₁ hj₂
      · exact hgap.before j hj₂ hj'
  | case5 => cases h

/-! ### Regions by their longest cell -/

/-- The cells that cover the words of a cell, whose row and first word are given as integers. There
are none if no cell of the chart stands there. The words on the left of the cell that is taken are
those of a cell in the row `c.start - b - 1`, and those on its right are those of a cell in the row
`a + b - c.span - c.start - 1`; either row may be `-1`. -/
def coverUnder (g : RuleSet) (chart : Chart) (a b : Int) : Except ParseError (List Coord) :=
  if a < 0 ∨ b < 0 ∨ chart.size ≤ a + b then .ok []
  else
    match _h : chart.highest? g b.toNat (a + b + 1).toNat with
    | none => .error (.uncovered ⟨a.toNat, b.toNat⟩)
    | some c =>
      match coverUnder g chart (c.start - b - 1) b with
      | .error e => .error e
      | .ok left =>
        match coverUnder g chart (a + b - c.span - c.start - 1) (c.span + c.start + 1) with
        | .error e => .error e
        | .ok right => .ok (left ++ c :: right)
termination_by (a + 1).toNat
decreasing_by
  all_goals
    have := highest?_within ‹_›
    simp only [Coord.stop] at *
    omega

theorem coverUnder_of_outside {a b : Int} (h : a < 0 ∨ b < 0 ∨ chart.size ≤ a + b) :
    chart.coverUnder g a b = .ok [] := by
  rw [coverUnder, if_pos h]

private theorem coverUnder_of_eq_none (hlt : lo < hi) (hhi : hi ≤ chart.size)
    (h : chart.highest? g lo hi = none) :
    chart.coverUnder g (hi - lo - 1 : Int) lo = .error (.uncovered ⟨hi - lo - 1, lo⟩) := by
  have hrow : ((hi : Int) - lo - 1).toNat = hi - lo - 1 := by omega
  have hstop : ((hi : Int) - lo - 1 + lo + 1).toNat = hi := by omega
  rw [coverUnder, if_neg (by omega)]
  split
  · rw [hrow, Int.toNat_natCast]
  · rename_i c hc
    rw [Int.toNat_natCast, hstop, h] at hc
    cases hc

private theorem coverUnder_of_eq_some {c : Coord} (hhi : hi ≤ chart.size)
    (h : chart.highest? g lo hi = some c) :
    chart.coverUnder g (hi - lo - 1 : Int) lo =
      match chart.coverUnder g (c.start - lo - 1 : Int) lo with
      | .error e => .error e
      | .ok left =>
        match chart.coverUnder g (hi - c.stop - 1 : Int) c.stop with
        | .error e => .error e
        | .ok right => .ok (left ++ c :: right) := by
  obtain ⟨hlo, hle⟩ := highest?_within h
  have hlt := c.start_lt_stop
  have hstop : ((hi : Int) - lo - 1 + lo + 1).toNat = hi := by omega
  have hrow : (hi : Int) - lo - 1 + lo - c.span - c.start - 1 = hi - c.stop - 1 := by
    rw [Coord.stop]
    omega
  have hfirst : (c.span : Int) + c.start + 1 = c.stop := by
    rw [Coord.stop]
    omega
  rw [coverUnder, if_neg (by omega)]
  split
  · rename_i hnone
    rw [Int.toNat_natCast, hstop, h] at hnone
    cases hnone
  · rename_i c' hc'
    rw [Int.toNat_natCast, hstop, h] at hc'
    obtain rfl := Option.some.inj hc'
    rw [hrow, hfirst]

theorem coverUnder_eq_cover (hhi : hi ≤ chart.size) :
    chart.coverUnder g (hi - lo - 1 : Int) lo = chart.cover g lo hi := by
  fun_induction cover g chart lo hi with
  | case1 lo hi hle => exact coverUnder_of_outside (.inl (by omega))
  | case2 lo hi hlt hnone => exact coverUnder_of_eq_none (Nat.lt_of_not_le hlt) hhi hnone
  | case3 lo hi hlt c hc err hl ihl =>
    have hstart := c.start_lt_stop.le.trans (highest?_within hc).2
    rw [coverUnder_of_eq_some hhi hc, ihl (hstart.trans hhi), hl]
  | case4 lo hi hlt c hc left hl err hr ihl ihr =>
    have hstart := c.start_lt_stop.le.trans (highest?_within hc).2
    rw [coverUnder_of_eq_some hhi hc, ihl (hstart.trans hhi), hl]
    dsimp only
    rw [ihr hhi, hr]
  | case5 lo hi hlt c hc left hl right hr ihl ihr =>
    have hstart := c.start_lt_stop.le.trans (highest?_within hc).2
    rw [coverUnder_of_eq_some hhi hc, ihl (hstart.trans hhi), hl]
    dsimp only
    rw [ihr hhi, hr]

/-- A cell is covered as the words from its first to its last one are. -/
theorem coverUnder_eq (g : RuleSet) (chart : Chart) (a b : Int) :
    chart.coverUnder g a b =
      if a < 0 ∨ b < 0 ∨ chart.size ≤ a + b then .ok []
      else chart.cover g b.toNat (a + b + 1).toNat := by
  split
  · rename_i h
    exact coverUnder_of_outside h
  · rename_i h
    have hstop : (a + b + 1).toNat ≤ chart.size := by omega
    rw [← coverUnder_eq_cover hstop]
    congr 1 <;> omega

theorem coverUnder_top (g : RuleSet) (chart : Chart) :
    chart.coverUnder g (chart.size - 1) 0 = chart.cover g 0 chart.size := by
  simpa using @coverUnder_eq_cover g chart 0 chart.size le_rfl

end Chart

end Chunker
