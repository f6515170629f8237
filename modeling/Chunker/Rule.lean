import Chunker.Category

/-!
# Rules

A rule makes a category out of a sequence of patterns. One position of the sequence may be the
governor: the syntactic head of the chunk.

## Main definitions

* `Rule` : a category, its patterns and its governor.
* `Rule.isWild` : the test for a rule that starts with a wildcard.
* `Rule.text` : the written form `head ==> a, +b .`
-/

namespace Chunker

/-- A category, the patterns that make it up, and the position of its governor. Without a mark
the first pattern governs. -/
structure Rule where
  head : Category
  right : List Category
  governor : Option Nat := some 0
deriving DecidableEq

namespace Rule

/-- Holds of the position of the governor. -/
def governs (r : Rule) (i : Nat) : Bool :=
  r.governor == some i

/-- Holds of a rule whose first pattern has a wildcard. -/
def isWild (r : Rule) : Bool :=
  r.right.head?.any Category.isWild

/-- Holds of a rule with a single pattern: one match completes it. -/
def isUnary (r : Rule) : Bool :=
  r.right.length == 1

/-- The patterns as they are written, with a `+` before the governor. -/
def markedPatterns (r : Rule) : List String :=
  r.right.mapIdx fun i p => if r.governs i then "+" ++ p else p

/-- The written form of a rule: its category, an arrow, the patterns between commas, a stop. -/
def text (r : Rule) : String :=
  match r.markedPatterns with
  | [] => r.head ++ " ==> ."
  | ps => r.head ++ " ==> " ++ ", ".intercalate ps ++ " ."

end Rule

end Chunker
