import Chunker.Category
import Chunker.Chart.Coord

/-!
# Warnings

What a grammar or an analysis does that its author may not have meant. A warning stops nothing.

## Main definitions

* `Warning` : the kinds of warnings with what they concern.
* `Warning.message`, `Warning.details` : the wording, and the named values that go with it.
-/

namespace Chunker

/-- The kinds of warnings: a rule with several patterns marks no governor, the start symbol is
hidden or barred from the top, a category for the root only is hidden everywhere, and no child of a
node is its head. -/
inductive Warning where
  | ungovernedRule (head : Category)
  | hiddenStart (start : Category)
  | neverTopStart (start : Category)
  | hiddenOnlyTop (category : Category)
  | ungovernedNode (label : Category) (cell : Coord)
deriving DecidableEq

namespace Warning

/-- The wording of a warning. -/
def message : Warning → String
  | ungovernedRule _ => "non-unary rule with no governor, first component taken as governor"
  | hiddenStart _ => "@START symbol cannot be @HIDDEN"
  | neverTopStart _ => "@START symbol cannot be @NOTOP"
  | hiddenOnlyTop _ => "@HIDDEN directive overrides @ONLYTOP"
  | ungovernedNode _ _ => "unset rule governor"

/-- The named values that go with a warning. -/
def details : Warning → List (String × String)
  | ungovernedRule head => [("rule", head)]
  | hiddenStart start => [("start", start)]
  | neverTopStart start => [("start", start)]
  | hiddenOnlyTop category => [("category", category)]
  | ungovernedNode label cell =>
    [("label", label), ("span", toString cell.span), ("start", toString cell.start)]

end Warning

end Chunker
