import Chunker.Chart
import Chunker.Chart.Preference

/-!
# Covers

A region of words is covered greedily. The longest cell of the region with a complete edge is
taken; of several of equal length, the one with the preferred edge, and the leftmost on a tie.
The words on either side of it are covered in the same way.

## Main definitions

* `Chart.candidates` : the complete edges of a row within a region.
* `Chart.highest?` : the cell that is taken for a region.
* `Chart.cover` : the cells that cover a region, from left to right.
* `ParseError` : why there is no analysis of a whole sentence.

## Main results

* `Chart.highest?_within` : the cell that is taken lies in the region.
-/

namespace Chunker

/-- The reasons why a chart yields no analysis of its sentence: there is no word; no complete edge
lies within a region; a cell of a cover holds no complete edge; or the cover has more cells than
the rule made for it has patterns. -/
inductive ParseError where
  | emptySentence
  | uncovered (region : Coord)
  | coverWithoutEdge
  | coverTooLong
deriving DecidableEq

/-- The wording of an error. -/
def ParseError.message : ParseError → String
  | emptySentence => "cannot parse an empty sentence"
  | uncovered region =>
    "inconsistent chart or wrongly loaded sentence: nothing covers " ++ region.spacedText
  | coverWithoutEdge => "inconsistent chart: covering cell without inactive edge"
  | coverTooLong => "inconsistent chart: covering longer than forced rule"

namespace Chart

/-- The complete edges of a row between two positions, with their cells, from left to right. -/
def candidates (chart : Chart) (lo hi span : Nat) : List (Coord × Edge) :=
  (List.range (hi - lo - span)).flatMap fun d =>
    (chart.complete ⟨span, lo + d⟩).map fun e => (⟨span, lo + d⟩, e)

/-- The cell that is taken first for the words between two positions. -/
def highest? (g : RuleSet) (chart : Chart) (lo hi : Nat) : Option Coord :=
  (List.range (hi - lo)).reverse.findSome? fun span =>
    (g.bestOn Prod.snd (chart.candidates lo hi span)).map Prod.fst

/-- The cell that is taken lies in the region. -/
theorem highest?_within {g : RuleSet} {chart : Chart} {lo hi : Nat} {c : Coord}
    (h : chart.highest? g lo hi = some c) : lo ≤ c.start ∧ c.stop ≤ hi := by
  obtain ⟨span, -, h⟩ := List.exists_of_findSome?_eq_some h
  obtain ⟨x, hx, rfl⟩ := Option.map_eq_some_iff.1 h
  have hm := RuleSet.mem_of_bestOn hx
  simp only [candidates, List.mem_flatMap, List.mem_range, List.mem_map] at hm
  obtain ⟨d, hd, e, -, rfl⟩ := hm
  simp only [Coord.stop]
  omega

/-- The cells that cover the words between two positions, from left to right. -/
def cover (g : RuleSet) (chart : Chart) (lo hi : Nat) : Except ParseError (List Coord) :=
  if hi ≤ lo then .ok []
  else
    match h : chart.highest? g lo hi with
    | none => .error (.uncovered ⟨hi - lo - 1, lo⟩)
    | some c =>
      match cover g chart lo c.start with
      | .error e => .error e
      | .ok left =>
        match cover g chart c.stop hi with
        | .error e => .error e
        | .ok right => .ok (left ++ c :: right)
termination_by hi - lo
decreasing_by
  all_goals
    have := highest?_within h
    simp only [Coord.stop] at *
    omega

end Chart

end Chunker
