import Chunker.Index
import Chunker.Rule

/-!
# Rule sets

A rule set holds the rules of a chunk grammar, filed by their first pattern, and what its
directives say about categories: the start symbol, the priorities, and the categories that are
hidden, flat, never at the top or only at the top. It also knows the forms and lemmas that
condition files list.

## Main definitions

* `RuleSet` : the rules and the directives.
* `RuleSet.addRule`, `RuleSet.addListed` : a further rule, a further entry of a condition file.
* `RuleSet.isTerminal`, `RuleSet.priority`, `RuleSet.isHidden`, … : what is known of a category.
* `RuleSet.rulesStarting`, `RuleSet.wildRules` : the rules by their first pattern.
* `RuleSet.accepts` : the match of a pattern with a category.
* `RuleSet.text` : the written form.
-/

namespace Chunker

/-- The rules of a grammar and what its directives say. The start symbol is the category of a whole
sentence. -/
structure RuleSet where
  start : Category := ""
  byFirst : Index Category Rule := {}
  /-- The rules whose first pattern has a wildcard, by the first character of that pattern. -/
  wild : Index Char Rule := {}
  /-- The categories that rules make, and the start symbol. -/
  nonterminals : List Category := []
  priorities : List (Category × Nat) := []
  hidden : List Category := []
  /-- The categories that are left out of trees below one of the same name. -/
  flat : List Category := []
  neverTop : List Category := []
  /-- The categories that are left out of trees except at the root. -/
  onlyTop : List Category := []
  /-- The references of condition files by the conditions that the files list. -/
  listed : Index String String := {}

namespace RuleSet

/-! ### Growth -/

/-- The rule set with one more rule, filed by its first pattern. -/
def addRule (g : RuleSet) (r : Rule) : RuleSet :=
  let g := { g with nonterminals := g.nonterminals.insert r.head }
  match r.right with
  | [] => g
  | p :: _ =>
    { g with
      byFirst := g.byFirst.file p r
      wild :=
        match p.toList with
        | c :: _ => if r.isWild then g.wild.file c r else g.wild
        | [] => g.wild }

/-- The rule set with one more entry of a condition file: the entry, written as a condition, and
the reference to the file. -/
def addListed (g : RuleSet) (condition reference : String) : RuleSet :=
  { g with listed := g.listed.file condition reference }

/-! ### Categories -/

/-- Holds of a category that no rule makes. -/
def isTerminal (g : RuleSet) (c : Category) : Bool :=
  decide (c ∉ g.nonterminals)

/-- The priority number of a category without a declared one. -/
def defaultPriority : Nat := 9999

/-- The priority number of a category; the lowest number goes first. -/
def priority (g : RuleSet) (c : Category) : Nat :=
  (g.priorities.lookup c).getD defaultPriority

/-- Holds of a category that is left out of trees. -/
def isHidden (g : RuleSet) (c : Category) : Bool :=
  decide (c ∈ g.hidden)

/-- Holds of a category that is left out of trees below one of the same name. -/
def isFlat (g : RuleSet) (c : Category) : Bool :=
  decide (c ∈ g.flat)

/-- Holds of a category that cannot head a sentence. -/
def isNeverTop (g : RuleSet) (c : Category) : Bool :=
  decide (c ∈ g.neverTop)

/-- Holds of a category that is left out of trees except at the root. -/
def isOnlyTop (g : RuleSet) (c : Category) : Bool :=
  decide (c ∈ g.onlyTop)

/-! ### Rules -/

/-- The rules, in the order in which their first patterns were first used. -/
def rules (g : RuleSet) : List Rule :=
  g.byFirst.values

/-- The number of rules. -/
def size (g : RuleSet) : Nat :=
  g.byFirst.size

/-- The rules whose first pattern is a given one. -/
def rulesStarting (g : RuleSet) (p : Category) : List Rule :=
  g.byFirst.get p

/-- The rules whose first pattern has a wildcard and begins with a given character. -/
def wildRules (g : RuleSet) (c : Char) : List Rule :=
  g.wild.get c

/-! ### Matching -/

/-- Holds of a condition that a condition file lists. -/
def lists (g : RuleSet) (condition reference : String) : Bool :=
  decide (reference ∈ g.listed.get condition)

/-- The match of a pattern with a category. A category matches itself. A pattern with a wildcard
also matches the categories that begin with its stem and either carry its condition or, if the
condition refers to a file, one that the file lists. -/
def accepts (g : RuleSet) (pattern found : Category) : Bool :=
  pattern == found ||
    match Category.stem? pattern with
    | none => false
    | some stem =>
      Category.startsWith found stem &&
        let wanted := Category.condition pattern
        let has := Category.condition found
        if Category.namesFile wanted then g.lists has wanted else has == wanted

/-! ### Written form -/

/-- The first line of the written form. -/
def startLine (g : RuleSet) : String :=
  "%% start: " ++ g.start

/-- The second line of the written form. -/
def nonterminalsLine (g : RuleSet) : String :=
  "%% nonterminals:" ++ String.join (g.nonterminals.map (" " ++ ·))

/-- The written form of a rule set: two comments, then a line for each rule. -/
def text (g : RuleSet) : String :=
  String.join ((g.startLine :: g.nonterminalsLine :: g.rules.map Rule.text).map (· ++ "\n"))

end RuleSet

end Chunker
