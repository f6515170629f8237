import Chunker.Chart

/-!
# Completion of a chart

The rows above the bottom one are filled from the shortest stretch to the longest. An edge of a
cell is extended by a cell right after it if some complete edge there matches the next pattern.
An extended edge that is complete also starts further rules.

## Main definitions

* `Chart.extend` : the edges that come from extending one edge by one cell.
* `Chart.combine` : the edges of a cell, from all of its divisions into two cells.
* `Chart.fill` : the chart with all rows filled.
-/

namespace Chunker.Chart

/-- Holds of a cell with a complete edge that matches a pattern. -/
def matchesAt (g : RuleSet) (chart : Chart) (pattern : Category) (c : Coord) : Bool :=
  (chart.complete c).any fun e => g.accepts pattern e.head

/-- The edges that come from extending an edge by a cell, for a target cell: the longer edge and,
if it is complete, those that it starts. -/
def extend (g : RuleSet) (chart : Chart) (target right : Coord) (e : Edge) : Cell :=
  match e.next? with
  | none => []
  | some p =>
    if chart.matchesAt g p right then
      match e.shift right with
      | none => []
      | some e' => if e'.isActive then [e'] else e' :: g.startEdges e'.head target
    else []

/-- The edges of a cell above the bottom row: every edge of the left cell extended by the right
cell, for each division of the cell. -/
def combine (g : RuleSet) (chart : Chart) (c : Coord) : Cell :=
  c.splits.flatMap fun (left, right) => (chart.cell left).flatMap (chart.extend g c right)

/-- The chart with one cell above the bottom row filled. -/
def fillCell (g : RuleSet) (chart : Chart) (c : Coord) : Chart :=
  if c.span = 0 then chart else chart.put c (chart.combine g c)

/-- The chart with all rows filled, in order. -/
def fill (g : RuleSet) (chart : Chart) : Chart :=
  (Coord.all chart.size).foldl (fillCell g) chart

end Chunker.Chart
