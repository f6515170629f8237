import Chunker.RuleSet
import Mathlib.Data.List.Basic

/-!
# Patterns and categories

A pattern matches itself. A pattern without a wildcard matches nothing else, and one with a
wildcard only what begins with the text before the wildcard.

## Main results

* `RuleSet.accepts_iff_eq` : what a pattern without a wildcard matches.
* `RuleSet.head?_of_accepts` : how a matched category begins.
-/

namespace Chunker

namespace Category

theorem isWild_eq_false_iff {p : Category} : isWild p = false ↔ '*' ∉ p.toList := by
  simp [isWild]

end Category

namespace RuleSet

variable {g : RuleSet} {p c : Category}

theorem accepts_self (g : RuleSet) (c : Category) : g.accepts c c := by
  simp [accepts]

/-- A pattern without a wildcard matches itself only. -/
theorem accepts_iff_eq (h : Category.isWild p = false) : g.accepts p c ↔ p = c := by
  rw [Category.isWild_eq_false_iff] at h
  simp [accepts, Category.stem?, h]

/-- A matched category begins as its pattern does. -/
theorem head?_of_accepts {x : Char} (h : g.accepts p c) (hx : p.toList.head? = some x)
    (hne : x ≠ '*') : c.toList.head? = some x := by
  obtain ⟨xs, hp⟩ := List.head?_eq_some_iff.1 hx
  simp only [accepts, Bool.or_eq_true, beq_iff_eq] at h
  rcases h with rfl | h
  · exact hx
  · cases hs : Category.stem? p with
    | none => simp [hs] at h
    | some stem =>
      obtain ⟨-, hstem⟩ := Option.ite_some_none_eq_some.1 hs
      simp only [hs, Bool.and_eq_true, Category.startsWith] at h
      obtain ⟨ys, hys⟩ := List.isPrefixOf_iff_prefix.1 h.1
      rw [← hys, ← hstem, hp, String.toList_ofList, List.takeWhile_cons_of_pos (by simpa using hne)]
      rfl

end RuleSet

end Chunker
