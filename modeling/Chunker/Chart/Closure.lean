import Chunker.Chart.Edge
import Chunker.RuleSet

/-!
# The rules that a complete edge starts

A complete edge starts the rules whose first pattern is its category. A rule with a single
pattern is complete at once and starts further rules in turn. If no rule makes the category, the
edge also starts the rules whose first pattern matches it through a wildcard.

Rules are started label by label from a queue. The rules of a label leave the index when they
are started, so every label is expanded once, and each step takes a label off the queue or moves
at most as many labels to it as rules leave the index.

## Main definitions

* `RuleSet.startFrom` : the rules started from a queue of labels.
* `RuleSet.startedBy` : the rules that a category starts.
* `RuleSet.startEdges` : their edges, with the first pattern matched by a cell.
-/

namespace Chunker.RuleSet

/-- The categories that a list of rules makes at once: the heads of those with one pattern. -/
def unaryHeads (rs : List Rule) : List Category :=
  (rs.filter Rule.isUnary).map Rule.head

theorem length_unaryHeads_le (rs : List Rule) : (unaryHeads rs).length ≤ rs.length := by
  simpa [unaryHeads] using List.length_filter_le _ rs

/-- The rules started from a queue of labels, out of those that have not been started yet. -/
def startFrom (unused : Index Category Rule) : List Category → List Rule
  | [] => []
  | label :: queue =>
    let rs := unused.get label
    rs ++ startFrom (unused.without label) (queue ++ unaryHeads rs)
termination_by queue => unused.size + queue.length
decreasing_by
  have := unused.size_without_add_le label
  have := length_unaryHeads_le (unused.get label)
  simp only [List.length_append, List.length_cons]
  omega

/-- The rules whose first pattern matches a category through a wildcard. Only a category that no
rule makes has any. -/
def wildStartedBy (g : RuleSet) (c : Category) : List Rule :=
  if g.isTerminal c then
    match c.toList with
    | [] => []
    | x :: _ => (g.wildRules x).filter (·.right.head?.any (g.accepts · c))
  else []

/-- The rules that a category starts. -/
def startedBy (g : RuleSet) (c : Category) : List Rule :=
  let wild := g.wildStartedBy c
  wild ++ startFrom g.byFirst (unaryHeads wild ++ [c])

/-- The edges of the rules that a category starts, with the first pattern matched by a cell. -/
def startEdges (g : RuleSet) (c : Category) (cell : Coord) : List Edge :=
  (g.startedBy c).filterMap fun r => (Edge.mk r []).shift cell

end Chunker.RuleSet
