import Chunker.Proofs.Chart.Closure
import Chunker.Proofs.Chart.Filling

/-!
# Where the edges of a filled chart come from

An edge comes into a cell of a filled chart in one of two ways. It enters by itself, as a
category that a word brings or as an edge of a shorter cell extended by the cell next to it; or
it is opened by a complete edge that stands before it in the same cell. Conversely, whatever
enters a cell or is opened by one of its complete edges is there. All that is proved of filled
charts rests on these two facts.

## Main definitions

* `Sentence.Offers` : the categories that a word brings.
* `Chart.Enters` : the edges that enter a cell by themselves.
* `RuleSet.Opens` : the edges that a complete edge opens.

## Main results

* `Chart.enters_or_opens` : every edge enters or is opened by an earlier one.
* `Chart.mem_cell_of_enters`, `Chart.mem_cell_of_opens` : the converse.
-/

namespace Chunker

/-! ### Edges -/

namespace Edge

theorem isComplete_iff {e : Edge} :
    e.isComplete = true ↔ e.rule.right.length ≤ e.backpath.length := by
  simp [isComplete, isActive]

theorem isComplete_lexical (c : Category) : (lexical c).isComplete = true :=
  rfl

theorem next?_eq {e : Edge} : e.next? = e.rule.right[e.backpath.length]? := by
  rw [next?, pending, List.head?_drop]

theorem shift_of_next? {e : Edge} {q : Category} (h : e.next? = some q) (d : Coord) :
    e.shift d = some ⟨e.rule, e.backpath ++ [d]⟩ := by
  rw [next?_eq] at h
  have hlt : e.backpath.length < e.rule.right.length := (List.getElem?_eq_some_iff.1 h).1
  simp [shift, isActive, hlt]

end Edge

/-! ### Categories of words -/

/-- Holds of the categories that a word brings under a tag sequence: for each analysis the tag
alone, with the form, and with the lemma. -/
def Sentence.Offers (s : Sentence) (k j : Nat) (c : Category) : Prop :=
  ∃ w, s.words[j]? = some w ∧ ∃ a ∈ w.analyses k,
    c = a.tag ∨ c = a.tag ++ "(" ++ w.lowerForm ++ ")" ∨ c = a.tag ++ "<" ++ a.lemmaForm ++ ">"

/-! ### Opened edges -/

/-- Holds of a complete edge and an edge that it opens in their cell: the rule of the latter is
started by the category of the former, and has its first pattern matched by the cell, and no other.
-/
structure RuleSet.Opens (g : RuleSet) (c : Coord) (e e' : Edge) : Prop where
  complete : e.isComplete
  rule : e'.rule ∈ g.rules
  starts : ∃ q, e'.rule.right.head? = some q ∧ g.Starts e.head q
  backpath : e'.backpath = [c]

/-- An edge with all edges that come with it: none unless it is complete. -/
def RuleSet.opening (g : RuleSet) (c : Coord) (e : Edge) : Cell :=
  if e.isActive then [e] else e :: g.startEdges e.head c

namespace RuleSet.WellFormed

variable {g : RuleSet} {c : Coord} {e e' : Edge}

private theorem mem_startEdges (h : g.WellFormed) {x : Category} :
    e' ∈ g.startEdges x c ↔ e'.rule ∈ g.startedBy x ∧ e'.backpath = [c] := by
  obtain ⟨r, cs⟩ := e'
  rw [h.startEdges_eq, List.mem_map]
  constructor
  · rintro ⟨_, hr, rfl, rfl⟩
    exact ⟨hr, rfl⟩
  · rintro ⟨hr, rfl⟩
    exact ⟨r, hr, rfl⟩

private theorem isUnary_iff_isComplete (h : g.WellFormed) {r : Rule} (hr : r ∈ g.rules) :
    r.isUnary = true ↔ (Edge.mk r [c]).isComplete = true := by
  have hpos := List.length_pos_iff.2 (h.rule r hr).right_ne_nil
  simp only [Rule.isUnary, Edge.isComplete_iff, List.length_singleton, beq_iff_eq]
  omega

/-- What an edge brings along is opened by it or by what came before. -/
theorem opening_order (h : g.WellFormed) {before after : List Edge} {x : Edge}
    (hx : g.opening c e = before ++ x :: after) :
    x = e ∨ ∃ e' ∈ before, g.Opens c e' x := by
  rw [opening] at hx
  split at hx
  · cases before with
    | nil => exact .inl (List.cons.inj hx).1.symm
    | cons y ys => simp at hx
  · rename_i he
    have hcomplete : e.isComplete := by simpa [Edge.isComplete] using he
    cases before with
    | nil => exact .inl (List.cons.inj hx).1.symm
    | cons y ys =>
      obtain ⟨rfl, htail⟩ := List.cons.inj hx
      rw [h.startEdges_eq] at htail
      obtain ⟨rs, rs', hrs, rfl, hrs'⟩ := List.map_eq_append_iff.1 htail
      obtain ⟨r, rs'', rfl, rfl, -⟩ := List.map_eq_cons_iff.1 hrs'
      obtain ⟨hr, q, hq, hs⟩ := h.startedBy_order hrs
      rcases hs with hs | ⟨r', hr', hu, rfl⟩
      · exact .inr ⟨e, List.mem_cons_self, hcomplete, hr, ⟨q, hq, hs⟩, rfl⟩
      · have hmem : r' ∈ g.rules := by
          obtain ⟨zs, zs', hzs⟩ := List.append_of_mem hr'
          rw [hzs, List.append_assoc] at hrs
          exact (h.startedBy_order hrs).1
        refine .inr ⟨⟨r', [c]⟩, List.mem_cons_of_mem e (List.mem_map.2 ⟨r', hr', rfl⟩), ?_⟩
        exact ⟨(h.isUnary_iff_isComplete hmem).1 hu, hr, ⟨_, hq, .inl rfl⟩, rfl⟩

/-- What an edge brings along brings along all that it opens. -/
theorem mem_opening_of_opens (h : g.WellFormed) {x y : Edge} (hx : x ∈ g.opening c e)
    (ho : g.Opens c x y) : y ∈ g.opening c e := by
  obtain ⟨hcomplete, hr, ⟨q, hq, hs⟩, hpath⟩ := ho
  rw [opening] at hx ⊢
  split
  · rename_i he
    rw [if_pos he, List.mem_singleton] at hx
    subst hx
    simp [Edge.isComplete, he] at hcomplete
  · rename_i he
    rw [if_neg he] at hx
    refine List.mem_cons_of_mem e (h.mem_startEdges.2 ⟨?_, hpath⟩)
    rcases List.mem_cons.1 hx with rfl | hx
    · exact h.mem_startedBy_of_starts hr hq hs
    · obtain ⟨hx, hxpath⟩ := h.mem_startEdges.1 hx
      have hxr : x.rule ∈ g.rules := by
        obtain ⟨zs, zs', hzs⟩ := List.append_of_mem hx
        exact (h.startedBy_order hzs).1
      have hu : x.rule.isUnary := by
        rw [h.isUnary_iff_isComplete (c := c) hxr, ← hxpath]
        exact hcomplete
      -- The category of a rule is no terminal, so it starts rules by equality only.
      have hnot : ¬ g.isTerminal x.head := fun ht =>
        RuleSet.isTerminal_iff.1 ht (h.head_mem x.rule hxr)
      rcases hs with rfl | ⟨ht, -⟩
      · exact h.mem_startedBy_of_unary hx hu hr hq
      · exact absurd ht hnot

end RuleSet.WellFormed

/-! ### Cells of a filled chart -/

namespace Chart

variable {g : RuleSet} {s : Sentence} {k : Nat} {chart : Chart} {c : Coord}

/-- The edges that enter a cell by themselves: a category that a word brings, or an edge of the
left cell of a division whose next pattern is matched by the right cell. -/
inductive Enters (g : RuleSet) (s : Sentence) (k : Nat) (chart : Chart) (c : Coord) :
    Edge → Prop
  | offered {x : Category} (hc : c.span = 0) (h : s.Offers k c.start x) :
      Enters g s k chart c (Edge.lexical x)
  | extended {l d : Coord} {e : Edge} {q : Category} (hs : (l, d) ∈ c.splits)
      (he : e ∈ chart.cell l) (hq : e.next? = some q) (hm : chart.matchesAt g q d) :
      Enters g s k chart c ⟨e.rule, e.backpath ++ [d]⟩

theorem matchesAt_iff {q : Category} {d : Coord} :
    chart.matchesAt g q d ↔ ∃ e ∈ chart.cell d, e.isComplete ∧ g.accepts q e.head := by
  simp [matchesAt, complete, Cell.complete]

private theorem seeds_eq (w : Word) :
    seeds g k w c =
      (((w.analyses k).flatMap (seedCategories w)).map Edge.lexical).flatMap (g.opening c) := by
  rw [seeds, List.flatMap_map]
  rfl

private theorem offers_iff {j : Nat} {w : Word} (hw : s.words[j]? = some w) {x : Category} :
    s.Offers k j x ↔ x ∈ (w.analyses k).flatMap (seedCategories w) := by
  simp [Sentence.Offers, hw, seedCategories]

/-- The edge that extends an edge by a cell, if the cell matches its next pattern. -/
private def extended? (g : RuleSet) (chart : Chart) (d : Coord) (e : Edge) : Option Edge :=
  e.next?.bind fun q => if chart.matchesAt g q d then e.shift d else none

private theorem extended?_eq_some_iff {d : Coord} {e e' : Edge} :
    extended? g chart d e = some e' ↔
      ∃ q, e.next? = some q ∧ chart.matchesAt g q d ∧ e' = ⟨e.rule, e.backpath ++ [d]⟩ := by
  rw [extended?, Option.bind_eq_some_iff]
  refine exists_congr fun q => and_congr_right fun hq => ?_
  rw [Edge.shift_of_next? hq]
  by_cases hm : chart.matchesAt g q d
  · rw [if_pos hm, Option.some.injEq]
    exact ⟨fun h => ⟨hm, h.symm⟩, fun h => h.2.symm⟩
  · rw [if_neg hm]
    exact ⟨fun h => absurd h (by simp), fun h => absurd h.1 hm⟩

private theorem extend_eq (right : Coord) (e : Edge) :
    chart.extend g c right e = (extended? g chart right e).toList.flatMap (g.opening c) := by
  rw [extend, extended?]
  cases e.next? with
  | none => rfl
  | some q =>
    simp only [Option.bind_some]
    by_cases hm : chart.matchesAt g q right
    · rw [if_pos hm, if_pos hm]
      cases e.shift right <;> simp [RuleSet.opening]
    · rw [if_neg hm, if_neg hm]
      rfl

private theorem combine_eq :
    chart.combine g c = (c.splits.flatMap fun p =>
      (chart.cell p.1).flatMap fun e => (extended? g chart p.2 e).toList).flatMap
        (g.opening c) := by
  rw [combine, List.flatMap_assoc]
  refine List.flatMap_congr fun p _ => ?_
  rw [List.flatMap_assoc]
  exact List.flatMap_congr fun e _ => extend_eq p.2 e

/-- A cell of a filled chart is made up of the edges that enter it, each with what it brings
along. -/
theorem exists_entering (g : RuleSet) (s : Sentence) (k : Nat) (hc : c.within s.size) :
    ∃ es : List Edge, ((load g s k).fill g).cell c = es.flatMap (g.opening c) ∧
      ∀ e, e ∈ es ↔ Enters g s k ((load g s k).fill g) c e := by
  by_cases hspan : c.span = 0
  · obtain ⟨span, j⟩ := c
    obtain rfl : span = 0 := hspan
    have hj : j < s.words.length := (Coord.within_iff.1 hc).2
    have hw : s.words[j]? = some s.words[j] := List.getElem?_eq_getElem hj
    let w := s.words[j]
    refine ⟨((w.analyses k).flatMap (seedCategories w)).map Edge.lexical, ?_, fun e => ?_⟩
    · rw [cell_fill_of_span_eq_zero hc rfl, cell_load hw, seeds_eq]
    · rw [List.mem_map]
      constructor
      · rintro ⟨x, hx, rfl⟩
        exact .offered rfl ((offers_iff hw).2 hx)
      · rintro (⟨-, hx⟩ | ⟨hs, -, -, -⟩)
        · exact ⟨_, (offers_iff hw).1 hx, rfl⟩
        · simp [Coord.splits] at hs
  · let filled := (load g s k).fill g
    refine ⟨c.splits.flatMap fun p =>
      (filled.cell p.1).flatMap fun e => (extended? g filled p.2 e).toList, ?_, fun e => ?_⟩
    · rw [cell_fill_of_span_pos (isFull_load g s k) hc (Nat.pos_of_ne_zero hspan), combine_eq]
    · simp only [List.mem_flatMap, Option.mem_toList, extended?_eq_some_iff]
      constructor
      · rintro ⟨⟨l, d⟩, hs, e', he', q, hq, hm, rfl⟩
        exact .extended hs he' hq hm
      · rintro (⟨h, -⟩ | ⟨hs, he, hq, hm⟩)
        · exact absurd h hspan
        · exact ⟨_, hs, _, he, _, hq, hm, rfl⟩

/-- Every edge of a filled chart enters its cell, or an earlier edge of the cell opens it. -/
theorem enters_or_opens (h : g.WellFormed) (hc : c.within s.size) {before after : List Edge}
    {e : Edge} (he : ((load g s k).fill g).cell c = before ++ e :: after) :
    Enters g s k ((load g s k).fill g) c e ∨ ∃ e' ∈ before, g.Opens c e' e := by
  obtain ⟨es, hes, hmem⟩ := exists_entering g s k hc
  rw [hes] at he
  obtain ⟨x, hx, before', after', ho, hsub⟩ := exists_of_flatMap_eq_append_cons he
  rcases h.opening_order ho with rfl | ⟨e', he', hopens⟩
  · exact .inl ((hmem e).1 hx)
  · exact .inr ⟨e', hsub he', hopens⟩

/-- What enters a cell of a filled chart is there. -/
theorem mem_cell_of_enters (hc : c.within s.size) {e : Edge}
    (he : Enters g s k ((load g s k).fill g) c e) : e ∈ ((load g s k).fill g).cell c := by
  obtain ⟨es, hes, hmem⟩ := exists_entering g s k hc
  rw [hes, List.mem_flatMap]
  refine ⟨e, (hmem e).2 he, ?_⟩
  rw [RuleSet.opening]
  split <;> exact List.mem_cons_self

/-- What an edge of a filled chart opens is in its cell. -/
theorem mem_cell_of_opens (h : g.WellFormed) (hc : c.within s.size) {e e' : Edge}
    (he : e ∈ ((load g s k).fill g).cell c) (ho : g.Opens c e e') :
    e' ∈ ((load g s k).fill g).cell c := by
  obtain ⟨es, hes, -⟩ := exists_entering g s k hc
  rw [hes, List.mem_flatMap] at he ⊢
  obtain ⟨x, hx, he⟩ := he
  exact ⟨x, hx, h.mem_opening_of_opens he ho⟩

end Chart

end Chunker
