import Chunker.Proofs.Chart.Closure
import Chunker.Proofs.Grammar.Contents

/-!
# The two indices of the rules

The rules of a text are filed by their first pattern and, if this pattern has a wildcard, by its
first character as well. Both indices answer as a scan of the rules would, in the order in which
they were written. A complete edge looks its category up in them, and a terminal category is also
looked up by its own first character. No rule is missed by this: a pattern begins with a letter, so
whatever it matches begins with the same letter.

## Main definitions

* `Grammar.declaredRules` : the rules of a text, in the order in which they are written.

## Main results

* `Grammar.indices_of_ofTextIn` : both indices agree with a scan of the rules.
-/

namespace Chunker

open Relation

theorem Rule.wildStart?_eq_some_iff {r : Rule} {x : Char} :
    r.wildStart? = some x ↔
      ∃ p, r.right.head? = some p ∧ '*' ∈ p.toList ∧ p.toList.head? = some x := by
  simp only [wildStart?, Option.bind_eq_some_iff, Option.filter_eq_some_iff, Category.isWild,
    decide_eq_true_iff, and_assoc]

namespace Grammar

/-- The rules that a text declares, in the order in which they are written. -/
def declaredRules (source : Source) (dir text : String) : List Rule :=
  (contents (statementsOf source dir text)).rules

/-- Both indices of a rule set that is read agree with a scan of the rules in the order in which
they are written. A first pattern has the rules with that pattern, a character those with a wildcard
in a first pattern that begins with it, and the size is the number of rules. A complete edge for a
terminal starts directly, through either index, the rules whose first pattern accepts the terminal;
one for another category starts the rules whose first pattern is the category. What it starts
further is started in turn by rules of one pattern. -/
theorem indices_of_ofTextIn {source : Source} {dir text : String} {gr : Grammar}
    (h : ofTextIn source dir text = .ok gr) :
    let g := gr.rules
    let rs := declaredRules source dir text
    (∀ p, g.rulesStarting p = rs.filter fun r => r.right.head? = some p) ∧
      (∀ x, g.wildRules x = rs.filter fun r =>
        r.right.head?.any fun p => '*' ∈ p.toList ∧ p.toList.head? = some x) ∧
      g.size = rs.length ∧
      (∀ c r, c ∉ g.nonterminals → (r ∈ g.startedDirectly c ↔
        r ∈ rs ∧ ∃ p, r.right.head? = some p ∧ g.accepts p c)) ∧
      (∀ c r, c ∈ g.nonterminals → (r ∈ g.startedDirectly c ↔
        r ∈ rs ∧ r.right.head? = some c)) ∧
      ∀ c r, r ∈ g.startedBy c ↔ ∃ r₀ ∈ g.startedDirectly c,
        ReflTransGen (fun r₁ r₂ => r₁.isUnary ∧ r₂ ∈ g.rulesStarting r₁.head) r₀ r := by
  intro g rs
  have hcontents : g.HasContents (contents (statementsOf source dir text)) :=
    hasContents_of_ofTextIn h
  have hwf : g.WellFormed := wellFormed_of_ofTextIn h
  have hdirect (c : Category) (r : Rule) : r ∈ g.startedDirectly c ↔
      r ∈ rs ∧ ∃ q, r.right.head? = some q ∧ g.Starts c q := by
    rw [hwf.mem_startedDirectly, hcontents.rules.mem_iff]
    rfl
  refine ⟨hcontents.rulesStarting, fun x => ?_, hcontents.rules.length_eq, fun c r hc => ?_,
    fun c r hc => ?_, fun c r => RuleSet.mem_startedBy_iff⟩
  · rw [hcontents.wildRules]
    refine List.filter_congr fun r _ => ?_
    rw [Bool.eq_iff_iff, decide_eq_true_iff, Rule.wildStart?_eq_some_iff, Option.any_eq_true]
    simp only [Bool.decide_and, Bool.and_eq_true, decide_eq_true_iff]
  · rw [hdirect]
    simp only [RuleSet.starts_iff_accepts (RuleSet.isTerminal_iff.2 hc)]
  · rw [hdirect]
    simp only [RuleSet.starts_iff_eq hc, exists_eq_right]

/-- Two rules with one first pattern, two with a wildcard after the same first character, and a rule
that is started in turn. -/
theorem indices_of_ofTextIn_two_wildcards :
    let text :=
      "np ==> NN, +NN | NN, +N* | N*, +PP . vp ==> np, +VB . np ==> +N*(dogs) . @START vp ."
    let g := RuleSet.ofText text
    ∃ warnings, ofTextIn Source.empty "." text = .ok ⟨g, warnings⟩ ∧
      g.rulesStarting "NN" = [⟨"np", ["NN", "NN"], some 1⟩, ⟨"np", ["NN", "N*"], some 1⟩] ∧
      g.wildRules 'N' = [⟨"np", ["N*", "PP"], some 1⟩, ⟨"np", ["N*(dogs)"], some 0⟩] ∧
      g.size = 5 ∧ ⟨"np", ["N*(dogs)"], some 0⟩ ∈ g.startedDirectly "NNS(dogs)" ∧
      ⟨"vp", ["np", "VB"], some 1⟩ ∈ g.startedBy "NNS(dogs)" := by
  intro text g
  obtain ⟨warnings, hload⟩ : ∃ warnings, ofText Source.empty text = .ok ⟨g, warnings⟩ :=
    RuleSet.exists_ofText_eq (by decide +kernel)
  have hrules : declaredRules Source.empty "." text =
      [⟨"np", ["NN", "NN"], some 1⟩, ⟨"np", ["NN", "N*"], some 1⟩, ⟨"np", ["N*", "PP"], some 1⟩,
        ⟨"vp", ["np", "VB"], some 1⟩, ⟨"np", ["N*(dogs)"], some 0⟩] := by decide +kernel
  obtain ⟨hfirst, hwild, hsize, hterminal, -, hstarted⟩ := indices_of_ofTextIn hload
  rw [hrules] at hfirst hwild hsize hterminal
  have hterm : "NNS(dogs)" ∉ g.nonterminals := by decide +kernel
  have haccepts : g.accepts "N*(dogs)" "NNS(dogs)" := by decide +kernel
  have hdogs : ⟨"np", ["N*(dogs)"], some 0⟩ ∈ g.startedDirectly "NNS(dogs)" :=
    (hterminal _ _ hterm).2 ⟨by decide, "N*(dogs)", rfl, haccepts⟩
  have hvp : ⟨"vp", ["np", "VB"], some 1⟩ ∈ g.rulesStarting "np" := by
    rw [hfirst]
    decide
  exact ⟨warnings, hload, (hfirst _).trans (by decide), (hwild _).trans (by decide), hsize, hdogs,
    (hstarted _ _).2 ⟨_, hdogs, .single ⟨rfl, hvp⟩⟩⟩

end Grammar

end Chunker
