import Chunker.Chart
import Chunker.Chart.Preference
import Chunker.Warning

/-!
# Derivations

A derivation tells how a category of a cell is made: which complete edge is taken, and how each
of its matched patterns is made in the cell that matched it. A tree is then read off the
derivation. Categories that are hidden, categories for the root only, and flat categories below
one of the same name are left out of the tree, and their children take their place.

The edge taken for a category is the best complete one of its cell. A pattern that no rule makes
is a leaf. Two categories on a path of a derivation take different edges, unless the path comes back
to a category in its own cell and goes around in a circle; so a derivation that ends is at most as
deep as the chart has edges, and the search stops there.

## Main definitions

* `Derivation` : the choices made for a category.
* `Chart.derive` : the derivation of a category in a cell.
* `Derivation.tree` : the tree of a derivation.
* `Derivation.notices` : the warnings and the faults met along a derivation, in order.
* `Chart.extract` : the tree of the best visible category of a cell.
* `TreeError` : why a cell has no tree.
-/

namespace Chunker

/-- The reasons why a cell has no tree. With `endless` the search reports that it has reached its
bound, where a search without one would not end. -/
inductive TreeError where
  | noVisibleEdge (cell : Coord)
  | noCompleteEdge (label : Category) (cell : Coord)
  | endless (label : Category) (cell : Coord)
deriving DecidableEq

/-- The wording of an error. -/
def TreeError.message : TreeError → String
  | noVisibleEdge cell => "no visible edge at " ++ cell.spacedText
  | noCompleteEdge label cell =>
    "inconsistent chart: no complete " ++ label ++ " at " ++ cell.spacedText
  | endless label cell =>
    "inconsistent chart: endless derivation of " ++ label ++ " at " ++ cell.spacedText

/-- The choices made for a category. A leaf is a category that no rule makes; a step takes an edge,
of which it keeps the governor, and a derivation for each of its patterns; a fault stands where a
category has no derivation. -/
inductive Derivation where
  | leaf (label : Category)
  | step (label : Category) (cell : Coord) (governor : Option Nat) (parts : List Derivation)
  | fault (error : TreeError)

/-! ### Search -/

namespace Chart

/-- The best complete edge of a cell that makes a category. -/
def bestFor? (g : RuleSet) (chart : Chart) (c : Coord) (label : Category) : Option Edge :=
  g.best? ((chart.complete c).filter (·.head == label))

/-- The derivation of a category in a cell, up to a depth. -/
def deriveWithin (g : RuleSet) (chart : Chart) : Nat → Coord → Category → Derivation
  | 0, c, label => .fault (.endless label c)
  | depth + 1, c, label =>
    if label != g.start && g.isTerminal label then .leaf label
    else
      match chart.bestFor? g c label with
      | none => .fault (.noCompleteEdge label c)
      | some e =>
        .step label c e.rule.governor
          ((e.matched.zip e.backpath).map fun (p, d) => deriveWithin g chart depth d p)

/-- The derivation of a category in a cell. One level for each edge of the chart and one for a
leaf are enough where the search ends, because two categories on a path of a derivation then take
different edges. -/
def derive (g : RuleSet) (chart : Chart) (c : Coord) (label : Category) : Derivation :=
  chart.deriveWithin g (chart.edgeCount + 1) c label

/-- The category of the best complete edge of a cell that is not left out of trees. -/
def visibleHead? (g : RuleSet) (chart : Chart) (c : Coord) : Option Category :=
  (g.best? ((chart.complete c).filter fun e => !g.isHidden e.head)).map Edge.head

end Chart

/-! ### Trees -/

/-- Holds of a category that is left out of a tree below a parent. -/
def RuleSet.leavesOut (g : RuleSet) (parent child : Category) : Bool :=
  g.isHidden child || g.isOnlyTop child || (g.isFlat child && child == parent)

/-- What stands for a child below its parent: the child, marked if it governs; or, if it is left
out, its own children, which keep their marks if it governs and lose them otherwise. -/
def RuleSet.place (g : RuleSet) (parent : Category) (governs : Bool) (child : Tree) :
    List Tree :=
  if g.leavesOut parent child.label then
    if governs then child.children else child.children.map (·.markHead false)
  else [child.markHead governs]

namespace Derivation

mutual

/-- The tree of a derivation. A fault has a leaf without a label in its place. -/
def tree (g : RuleSet) : Derivation → Tree
  | leaf label => .node ⟨label, none, false, none⟩ []
  | step label _ governor parts =>
    .node ⟨label, none, false, none⟩ (childrenFrom g label governor 0 parts)
  | fault _ => .node ⟨"", none, false, none⟩ []

/-- The children that derivations give to a parent, the first derivation being at a position of
the parent's rule. -/
def childrenFrom (g : RuleSet) (parent : Category) (governor : Option Nat) (i : Nat) :
    List Derivation → List Tree
  | [] => []
  | d :: ds =>
    g.place parent (governor == some i) (tree g d) ++ childrenFrom g parent governor (i + 1) ds

end

/-- Holds of a derivation whose governor leaves a child to its parent. -/
def hasHead (g : RuleSet) (parent : Category) (governor : Option Nat)
    (parts : List Derivation) : Bool :=
  match governor with
  | none => false
  | some i => parts[i]?.any fun d => !(g.place parent true (d.tree g)).isEmpty

/-! ### Notices -/

/-- What is met along a derivation: a node without a head, or a category without a derivation. -/
inductive Notice where
  | warning (w : Warning)
  | fault (e : TreeError)

namespace Notice

/-- The warning of a notice. -/
def warning? : Notice → Option Warning
  | warning w => some w
  | fault _ => none

/-- The fault of a notice. -/
def fault? : Notice → Option TreeError
  | warning _ => none
  | fault e => some e

end Notice

mutual

/-- The notices of a derivation: those of its parts, from left to right, and then a warning if
no child is the head. The start symbol needs no head. -/
def notices (g : RuleSet) : Derivation → List Notice
  | leaf _ => []
  | step label c governor parts =>
    noticesOf g parts ++
      if hasHead g label governor parts || label == g.start then []
      else [.warning (.ungovernedNode label c)]
  | fault e => [.fault e]

/-- The notices of several derivations, one after the other. -/
def noticesOf (g : RuleSet) : List Derivation → List Notice
  | [] => []
  | d :: ds => notices g d ++ noticesOf g ds

end

/-- The tree of a derivation without faults, or else the first fault; with the warnings up to
there. -/
def outcome (g : RuleSet) (d : Derivation) : Except TreeError Tree × List Warning :=
  let ns := d.notices g
  let warnings := (ns.takeWhile (·.fault?.isNone)).filterMap Notice.warning?
  match ns.findSome? Notice.fault? with
  | some e => (.error e, warnings)
  | none => (.ok (d.tree g), warnings)

end Derivation

/-- The tree of the best visible category of a cell, with the warnings on the way. -/
def Chart.extract (g : RuleSet) (chart : Chart) (c : Coord) :
    Except TreeError Tree × List Warning :=
  match chart.visibleHead? g c with
  | none => (.error (.noVisibleEdge c), [])
  | some label => (chart.derive g c label).outcome g

end Chunker
