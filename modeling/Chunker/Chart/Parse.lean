import Chunker.Chart.Completion
import Chunker.Chart.Cover

/-!
# Analysis of a whole sentence

A filled chart analyses its sentence if a complete edge over all words may stand at the top. If
there is none, an edge for the start symbol is made from a cover of the sentence and added to
the top cell. Its rule has the best category of each covering cell and no governor.

## Main definitions

* `Chart.top` : the cell of all words.
* `Chart.root?` : the best complete edge that may stand at the top.
* `Chart.forcedRoot` : the edge made from a cover.
* `Chart.parse` : the chart filled and given a root, with the outcome.
-/

namespace Chunker.Chart

/-- The cell of all words. -/
def top (chart : Chart) : Coord :=
  ⟨chart.size - 1, 0⟩

/-- The best complete edge over all words whose category may head a sentence. -/
def root? (g : RuleSet) (chart : Chart) : Option Edge :=
  g.best? ((chart.complete chart.top).filter fun e =>
    !g.isNeverTop e.head && !g.isHidden e.head)

/-- The categories of the best complete edges of several cells. -/
def bestHeads (g : RuleSet) (chart : Chart) : List Coord → Except ParseError (List Category)
  | [] => .ok []
  | c :: cs =>
    match g.best? (chart.complete c) with
    | none => .error .coverWithoutEdge
    | some e =>
      match bestHeads g chart cs with
      | .error err => .error err
      | .ok heads => .ok (e.head :: heads)

/-- The edge for the start symbol over the best cover of all words. -/
def forcedRoot (g : RuleSet) (chart : Chart) : Except ParseError Edge :=
  match chart.cover g 0 chart.size with
  | .error e => .error e
  | .ok cells =>
    match chart.bestHeads g cells with
    | .error e => .error e
    | .ok heads =>
      match (Edge.mk ⟨g.start, heads, none⟩ []).shiftAll cells with
      | none => .error .coverTooLong
      | some e => .ok e

/-- The chart filled and, unless an edge may stand at the top already, given a forced root. The
chart is filled also where the outcome is an error, except for a sentence without words. -/
def parse (g : RuleSet) (chart : Chart) : Except ParseError Unit × Chart :=
  if chart.size = 0 then (.error .emptySentence, chart)
  else
    let filled := chart.fill g
    match filled.root? g with
    | some _ => (.ok (), filled)
    | none =>
      match filled.forcedRoot g with
      | .error e => (.error e, filled)
      | .ok e => (.ok (), filled.put filled.top (filled.cell filled.top ++ [e]))

end Chunker.Chart
