import Chunker.Chart.Edge
import Chunker.Chart.Closure
import Chunker.Sentence

/-!
# Charts

A chart holds, for every stretch of consecutive words of a sentence, the edges that end there in
the order in which they were found. The bottom row is seeded with the words: every analysis gives
the categories `tag`, `tag(form)` and `tag<lemma>`, each followed by the edges that it starts.

## Main definitions

* `Chart` : the cells in a flat table.
* `Chart.cell`, `Chart.put` : one cell of the table.
* `Chart.seeds`, `Chart.load` : the bottom row of a sentence.
* `Chart.text` : the written form.
-/

namespace Chunker

/-- The edges of one cell in the order in which they were found. -/
abbrev Cell := List Edge

/-- The complete edges of a cell. -/
def Cell.complete (c : Cell) : Cell :=
  List.filter Edge.isComplete c

/-- The cells for the words of one tag sequence of a sentence, row by row in a flat table. The size
is the number of words. -/
structure Chart where
  size : Nat := 0
  table : Array Cell := #[]

namespace Chart

/-! ### Cells -/

/-- The edges of a cell; none outside the table. -/
def cell (chart : Chart) (c : Coord) : Cell :=
  chart.table.getD (c.index chart.size) []

/-- The complete edges of a cell. -/
def complete (chart : Chart) (c : Coord) : Cell :=
  (chart.cell c).complete

/-- The chart with other edges in a cell. -/
def put (chart : Chart) (c : Coord) (es : Cell) : Chart :=
  { chart with table := chart.table.setIfInBounds (c.index chart.size) es }

/-- The number of edges in all cells. -/
def edgeCount (chart : Chart) : Nat :=
  chart.table.toList.flatten.length

/-! ### The bottom row -/

/-- The categories of an analysis of a word: its tag alone, with the form, and with the lemma. -/
def seedCategories (w : Word) (a : Analysis) : List Category :=
  [a.tag, a.tag ++ "(" ++ w.lowerForm ++ ")", a.tag ++ "<" ++ a.lemmaForm ++ ">"]

/-- The bottom cell of a word: its categories under a tag sequence, each followed by the edges
that it starts. -/
def seeds (g : RuleSet) (k : Nat) (w : Word) (cell : Coord) : Cell :=
  ((w.analyses k).flatMap (seedCategories w)).flatMap fun c =>
    Edge.lexical c :: g.startEdges c cell

/-- The chart of a tag sequence of a sentence, with the bottom row filled and the other rows
empty. -/
def load (g : RuleSet) (s : Sentence) (k : Nat) : Chart where
  size := s.size
  table :=
    (s.words.mapIdx (fun i w => seeds g k w ⟨0, i⟩) ++
      List.replicate (Coord.count s.size - s.size) []).toArray

/-! ### Written form -/

/-- The written form of a cell: nothing if it has no edge, otherwise a line with its coordinate
and a line for each edge. -/
def cellText (chart : Chart) (c : Coord) : String :=
  match chart.cell c with
  | [] => ""
  | es => "Cell " ++ c.text ++ ":\n" ++ String.join (es.map ("  " ++ ·.text ++ "\n"))

/-- The written form of a chart, cell by cell. -/
def text (chart : Chart) : String :=
  String.join ((Coord.all chart.size).map chart.cellText)

end Chart

end Chunker
