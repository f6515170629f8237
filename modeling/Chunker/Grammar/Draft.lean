import Chunker.Grammar.Statement
import Chunker.RuleSet
import Chunker.Warning

/-!
# Drafts of a grammar

A draft is what the statements read so far say. A rule statement adds its productions in order; a
production without a mark is governed by its first element, with a warning if it has others. A
directive speaks only of categories that earlier rules make, or of the start symbol. The start
directive has one category and stands once.

Priority numbers count the categories of all priority directives from 1, repeated ones included;
the first number of a category counts.

## Main definitions

* `Grammar.Draft` : the rule set so far.
* `Grammar.Draft.apply`, `Grammar.Draft.applyAll` : the draft after one and after several
  statements.
* `Grammar.Draft.finish` : the complete rule set, with all warnings.
-/

namespace Chunker.Grammar

/-! ### Productions -/

namespace Element

/-- The references to files, each with the entries of the file. -/
def listings (e : Element) : List (String × String) :=
  match e.condition with
  | .listed reference entries => entries.map (·, reference)
  | _ => []

end Element

namespace Production

/-- The position of the marked element of a production, or the first position. -/
def governor (p : Production) : Nat :=
  (p.findIdx? Element.governs).getD 0

/-- Holds of a production in which no element is marked although there are several. -/
def isUngoverned (p : Production) : Bool :=
  !p.any Element.governs && p.length != 1

/-- The rule of a production for a category. -/
def rule (head : Category) (p : Production) : Rule :=
  ⟨head, p.map Element.pattern, some (governor p)⟩

end Production

/-! ### Directives -/

/-- What a directive may say about a category of a rule: that it gets the next priority number,
that it is left out of trees, or is so below one of the same name, that it is barred from the top,
or that it is left out of trees except at the root. -/
inductive Directive where
  | prior
  | hidden
  | flat
  | neverTop
  | onlyTop
deriving DecidableEq

/-- The directive of a name. -/
def Directive.ofName? (name : String) : Option Directive :=
  if name = "@PRIOR" then some .prior
  else if name = "@HIDDEN" then some .hidden
  else if name = "@FLAT" then some .flat
  else if name = "@NOTOP" then some .neverTop
  else if name = "@ONLYTOP" then some .onlyTop
  else none

/-! ### Drafts -/

/-- The rule set so far, the next priority number, and the warnings in order. -/
structure Draft where
  rules : RuleSet := {}
  nextPriority : Nat := 1
  warnings : List Warning := []

namespace Draft

/-- The draft with one more production of a category. -/
def addProduction (d : Draft) (head : Category) (p : Production) : Draft :=
  let listed := (p.flatMap Element.listings).foldl
    (fun g (entry, reference) => g.addListed entry reference) d.rules
  { d with
    rules := listed.addRule (Production.rule head p)
    warnings :=
      d.warnings ++ if Production.isUngoverned p then [.ungovernedRule head] else [] }

/-- The draft with the start symbol. -/
def setStart (d : Draft) (c : Category) : Draft :=
  { d with
    rules := { d.rules with start := c, nonterminals := d.rules.nonterminals.insert c } }

/-- The draft after a directive has spoken of a category. -/
def declare (d : Draft) (directive : Directive) (c : Category) : Draft :=
  let g := d.rules
  match directive with
  | .prior =>
    { d with
      rules :=
        { g with
          priorities :=
            if (g.priorities.lookup c).isSome then g.priorities
            else g.priorities ++ [(c, d.nextPriority)] }
      nextPriority := d.nextPriority + 1 }
  | .hidden => { d with rules := { g with hidden := g.hidden.insert c } }
  | .flat => { d with rules := { g with flat := g.flat.insert c } }
  | .neverTop => { d with rules := { g with neverTop := g.neverTop.insert c } }
  | .onlyTop => { d with rules := { g with onlyTop := g.onlyTop.insert c } }

/-- The draft after a directive has spoken of several categories. A directive without a meaning is
found out only by its first category. -/
def declareAll (name : String) (d : Draft) : List Category → Except GrammarError Draft
  | [] => .ok d
  | c :: cs =>
    if d.rules.isTerminal c then .error (.terminalInDirective c name)
    else
      match Directive.ofName? name with
      | none => .error (.unknownDirective name)
      | some directive => declareAll name (d.declare directive c) cs

/-- The draft after one more statement. -/
def apply (d : Draft) : Statement → Except GrammarError Draft
  | .rules head ps => .ok (ps.foldl (·.addProduction head) d)
  | .directive name cs =>
    if name = "@START" then
      match cs with
      | [c] => if d.rules.start = "" then .ok (d.setStart c) else .error .startRepeated
      | _ => .error .startArity
    else declareAll name d cs

/-- The draft after several statements, up to the first that says something wrong. -/
def applyAll (d : Draft) : List Statement → Except GrammarError Draft
  | [] => .ok d
  | s :: rest =>
    match d.apply s with
    | .error e => .error e
    | .ok d' => applyAll d' rest

/-- The warnings about the directives of a complete rule set. Categories that are hidden and for
the root only come last, in alphabetical order. -/
def closingWarnings (g : RuleSet) : List Warning :=
  (if g.isHidden g.start then [.hiddenStart g.start] else []) ++
    (if g.isNeverTop g.start then [.neverTopStart g.start] else []) ++
    ((g.onlyTop.filter g.isHidden).mergeSort (fun a b => decide (a ≤ b))).map .hiddenOnlyTop

/-- The complete rule set, with all warnings. There has to be a start symbol. -/
def finish (d : Draft) : Except GrammarError (RuleSet × List Warning) :=
  if d.rules.start = "" then .error .startMissing
  else .ok (d.rules, d.warnings ++ closingWarnings d.rules)

end Draft

end Chunker.Grammar
