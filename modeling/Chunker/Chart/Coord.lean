/-!
# Chart coordinates

The cells of a chart stand in rows. Row `span` holds the cells for `span + 1` consecutive words,
one cell for each position of the first word, so that row 0 has a cell for every word and each
further row has one cell less. In the table the rows follow one another.

## Main definitions

* `Coord` : a row and a position in it.
* `Coord.stop` : the position after the last word that a cell covers.
* `Coord.index` : the position of a cell in the table.
* `Coord.all` : the coordinates of a chart, row by row.
* `Coord.splits` : the ways to divide the words of a cell between two cells.
-/

namespace Chunker

/-- A row of the chart and the position of the first word. -/
structure Coord where
  /-- The number of covered words, less one. -/
  span : Nat
  start : Nat
deriving DecidableEq

namespace Coord

/-- The position after the last covered word. -/
def stop (c : Coord) : Nat :=
  c.start + c.span + 1

/-- Holds of a cell of a chart over `n` words. -/
def within (c : Coord) (n : Nat) : Bool :=
  c.span < n && c.start < n - c.span

/-- The position of a cell in the table of a chart over `n` words: row `span` comes after the
`span * (n + 1) - span * (span + 1) / 2` cells of the rows before it. -/
def index (n : Nat) (c : Coord) : Nat :=
  c.start + c.span * (n + 1) - c.span * (c.span + 1) / 2

/-- The number of cells of a chart over `n` words. -/
def count (n : Nat) : Nat :=
  (n + 1) * n / 2

/-- The coordinates of a row of a chart over `n` words, from left to right. -/
def row (n span : Nat) : List Coord :=
  (List.range (n - span)).map (⟨span, ·⟩)

/-- The coordinates of a chart over `n` words, row by row. -/
def all (n : Nat) : List Coord :=
  (List.range n).flatMap (row n)

/-- The ways to divide the words of a cell between a left and a right cell, the shortest left
cell first. -/
def splits (c : Coord) : List (Coord × Coord) :=
  (List.range c.span).map fun a => (⟨a, c.start⟩, ⟨c.span - a - 1, c.start + a + 1⟩)

/-- The written form of a coordinate. -/
def text (c : Coord) : String :=
  "(" ++ toString c.span ++ "," ++ toString c.start ++ ")"

/-- The form in which messages write a coordinate, with a space after the comma. -/
def spacedText (c : Coord) : String :=
  "(" ++ toString c.span ++ ", " ++ toString c.start ++ ")"

end Coord

end Chunker
