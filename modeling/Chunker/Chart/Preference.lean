import Chunker.Chart.Edge
import Chunker.RuleSet

/-!
# Preference among edges

Of two edges that make different categories, one may be preferred. The start symbol goes before
every other category, and categories made by rules go before words. Among words the more
specific category is preferred; among categories made by rules, the one with the lower priority
number, and with equal numbers the edge with more matched patterns.

## Main definitions

* `RuleSet.prefers` : the preference of one edge over another.
* `RuleSet.bestOn`, `RuleSet.best?` : the best of several items or edges.

## Main results

* `RuleSet.mem_of_bestOn` : the best is one of those offered.
-/

namespace Chunker.RuleSet

variable {α : Type}

/-- The preference of one edge over another. -/
def prefers (g : RuleSet) (e₁ e₂ : Edge) : Bool :=
  if (e₁.head == g.start) != (e₂.head == g.start) then e₁.head == g.start
  else
    match g.isTerminal e₁.head, g.isTerminal e₂.head with
    | true, true => Category.specificity e₁.head < Category.specificity e₂.head
    | false, false =>
      g.priority e₁.head < g.priority e₂.head ||
        (g.priority e₁.head == g.priority e₂.head &&
          e₂.matched.length < e₁.matched.length)
    | terminal, _ => !terminal

/-- The preference of an edge over what has been found so far, which may be nothing. -/
def improves (g : RuleSet) (e : Edge) (found : Option Edge) : Bool :=
  match found with
  | none => true
  | some e' => g.prefers e e'

/-- The preferred one of what has been found so far and one more item. -/
def pick (g : RuleSet) (edge : α → Edge) (found : Option α) (x : α) : Option α :=
  if g.improves (edge x) (found.map edge) then some x else found

/-- The item that is left when items are offered one by one: the first whose edge is beaten by
none. -/
def bestOn (g : RuleSet) (edge : α → Edge) (xs : List α) : Option α :=
  xs.foldl (g.pick edge) none

/-- The best of several edges. -/
def best? (g : RuleSet) (es : List Edge) : Option Edge :=
  g.bestOn id es

/-! ### Laws -/

private theorem foldl_pick_cases (g : RuleSet) (edge : α → Edge) (xs : List α)
    (found : Option α) :
    xs.foldl (g.pick edge) found = found ∨ ∃ x ∈ xs, xs.foldl (g.pick edge) found = some x := by
  induction xs generalizing found with
  | nil => exact .inl rfl
  | cons x xs ih =>
    rw [List.foldl_cons]
    rcases ih (g.pick edge found x) with h | ⟨y, hy, h⟩
    · rw [h, pick]
      split
      · exact .inr ⟨x, List.mem_cons_self, rfl⟩
      · exact .inl rfl
    · exact .inr ⟨y, List.mem_cons_of_mem x hy, h⟩

/-- The best is one of those offered. -/
theorem mem_of_bestOn {g : RuleSet} {edge : α → Edge} {xs : List α} {x : α}
    (h : g.bestOn edge xs = some x) : x ∈ xs := by
  rcases foldl_pick_cases g edge xs none with h' | ⟨y, hy, h'⟩
  · rw [bestOn, h'] at h
    cases h
  · rw [bestOn, h'] at h
    exact Option.some.inj h ▸ hy

end Chunker.RuleSet
