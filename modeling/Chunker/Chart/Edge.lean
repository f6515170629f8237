import Chunker.Chart.Coord
import Chunker.Rule

/-!
# Edges

An edge is a rule some of whose patterns, from the left, have been matched. It remembers the cell
that matched each of them. An edge with all patterns matched is complete; any other is active.

## Main definitions

* `Edge` : a rule and the cells matched so far.
* `Edge.matched`, `Edge.pending` : the patterns before and after the point reached.
* `Edge.shift`, `Edge.shiftAll` : the match of the next patterns.
* `Edge.lexical` : the complete edge of a category that no rule makes.
-/

namespace Chunker

/-- A rule with the cells that matched its first patterns, from left to right. -/
structure Edge where
  rule : Rule
  backpath : List Coord := []
deriving DecidableEq

namespace Edge

/-- The complete edge of a category, by a rule without patterns. -/
def lexical (c : Category) : Edge :=
  ⟨⟨c, [], some 0⟩, []⟩

/-- The category that the edge makes. -/
def head (e : Edge) : Category :=
  e.rule.head

/-- The patterns that have been matched. -/
def matched (e : Edge) : List Category :=
  e.rule.right.take e.backpath.length

/-- The patterns that are still to be matched. -/
def pending (e : Edge) : List Category :=
  e.rule.right.drop e.backpath.length

/-- The pattern that has to be matched next. -/
def next? (e : Edge) : Option Category :=
  e.pending.head?

/-- Holds of an edge with patterns still to be matched. -/
def isActive (e : Edge) : Bool :=
  e.backpath.length < e.rule.right.length

/-- Holds of an edge whose patterns have all been matched. -/
def isComplete (e : Edge) : Bool :=
  !e.isActive

/-- The edge with its next pattern matched by a cell. A complete edge has none. -/
def shift (e : Edge) (c : Coord) : Option Edge :=
  if e.isActive then some { e with backpath := e.backpath ++ [c] } else none

/-- The edge with its next patterns matched by successive cells. -/
def shiftAll (e : Edge) (cs : List Coord) : Option Edge :=
  cs.foldlM shift e

/-- The written form of an edge: its category, the matched patterns, a dot, the pending
patterns, and the cells of the matched ones. -/
def text (e : Edge) : String :=
  e.head ++ " →" ++ String.join (e.matched.map (" " ++ ·)) ++ " ・" ++
    String.join (e.pending.map (" " ++ ·)) ++ "   backpath:" ++
    String.join (e.backpath.map (" " ++ ·.text))

end Edge

end Chunker
