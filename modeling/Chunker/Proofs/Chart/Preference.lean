import Chunker.Chart.Preference
import Mathlib.Data.List.MinMax
import Mathlib.Data.Prod.Lex

/-!
# The order behind the preference

An edge is preferred to another if its rank is lower. The rank is read from left to right: whether
the edge makes the start symbol, whether it is a category of a word, the specificity or the
priority number, and last the number of matched patterns, where more are better. Ranks are
linearly ordered, so the preference is a strict weak order, and the best of several edges is the
first of those of the lowest rank.

## Main definitions

* `RuleSet.rank` : the rank of an edge.
* `RuleSet.Ties` : two edges neither of which is preferred to the other.

## Main results

* `RuleSet.prefers_iff_rank_lt` : an edge is preferred to those of a higher rank.
* `RuleSet.bestOn_eq_some_iff`, `RuleSet.best?_eq_some_iff` : the best of several items or edges
  is preferred to those before it, and none of those after it is preferred to it.
* `RuleSet.strictWeakOrder_prefers` : the laws of the preference and of the best edge.
-/

namespace Chunker.RuleSet

variable {α : Type} {g : RuleSet}

/-- The rank of an edge, to be read from left to right. -/
def rank (g : RuleSet) (e : Edge) : ℕ ×ₗ ℕ ×ₗ ℕ ×ₗ ℕᵒᵈ :=
  toLex (if e.head = g.start then 0 else 1,
    if g.isTerminal e.head then
      toLex (1, toLex (Category.specificity e.head, OrderDual.toDual 0))
    else
      toLex (0, toLex (g.priority e.head, OrderDual.toDual e.matched.length)))

/-- An edge is preferred to the edges of a higher rank. -/
theorem prefers_iff_rank_lt {e₁ e₂ : Edge} : g.prefers e₁ e₂ = true ↔ g.rank e₁ < g.rank e₂ := by
  rw [prefers, rank, rank]
  by_cases h₁ : e₁.head = g.start <;> by_cases h₂ : e₂.head = g.start <;>
    cases g.isTerminal e₁.head <;> cases g.isTerminal e₂.head <;>
    simp [h₁, h₂, Prod.Lex.toLex_lt_toLex]

/-- Of two edges of one category, one is preferred only for more matched patterns. -/
theorem length_lt_of_rank_lt {e₁ e₂ : Edge} (hhead : e₁.head = e₂.head)
    (h : g.rank e₁ < g.rank e₂) : e₂.matched.length < e₁.matched.length := by
  rw [rank, rank, hhead] at h
  cases hterminal : g.isTerminal e₂.head with
  | true => simp [hterminal] at h
  | false => simpa [hterminal, Prod.Lex.toLex_lt_toLex] using h

theorem rank_lt_of_start {e e' : Edge} (he : e.head = g.start) (he' : e'.head ≠ g.start) :
    g.rank e < g.rank e' := by
  rw [← prefers_iff_rank_lt, prefers]
  simp [he, he']

/-- The best of several items is the first whose edge has the lowest rank. -/
theorem bestOn_eq_argmin (g : RuleSet) (edge : α → Edge) (xs : List α) :
    g.bestOn edge xs = xs.argmin (g.rank ∘ edge) := by
  rw [bestOn, List.argmin]
  congr
  funext found x
  cases found with
  | none => rfl
  | some y => simp [pick, improves, prefers_iff_rank_lt, List.argAux]

theorem bestOn_eq_none_iff {edge : α → Edge} {xs : List α} :
    g.bestOn edge xs = none ↔ xs = [] := by
  rw [bestOn_eq_argmin, List.argmin_eq_none]

theorem best?_eq_none_iff {es : List Edge} : g.best? es = none ↔ es = [] :=
  bestOn_eq_none_iff

theorem mem_of_best? {es : List Edge} {e : Edge} (h : g.best? es = some e) : e ∈ es :=
  mem_of_bestOn h

theorem rank_le_of_best? {es : List Edge} {e e' : Edge} (h : g.best? es = some e)
    (he' : e' ∈ es) : g.rank e ≤ g.rank e' := by
  rw [best?, bestOn_eq_argmin] at h
  exact List.le_of_mem_argmin he' h

/-- The best of several items is preferred to those before it, and none of those after it is
preferred to it. -/
theorem bestOn_eq_some_iff [DecidableEq α] {edge : α → Edge} {xs : List α} {x : α} :
    g.bestOn edge xs = some x ↔ ∃ before after, xs = before ++ x :: after ∧
      (∀ y ∈ before, g.rank (edge x) < g.rank (edge y)) ∧
      ∀ y ∈ after, g.rank (edge x) ≤ g.rank (edge y) := by
  rw [bestOn_eq_argmin, List.argmin_eq_some_iff]
  constructor
  · rintro ⟨hx, hle, hfirst⟩
    obtain ⟨before, after, rfl, hnot⟩ := List.eq_append_cons_of_mem hx
    refine ⟨before, after, rfl, fun y hy => ?_, fun y hy => ?_⟩
    · -- An item of the same rank before the best one would have been taken.
      have hmem : y ∈ before ++ x :: after := List.mem_append_left _ hy
      refine (hle y hmem).lt_of_not_ge fun hge => ?_
      have hidx := hfirst y hmem hge
      rw [List.idxOf_append_of_notMem hnot, List.idxOf_append_of_mem hy] at hidx
      have := List.idxOf_lt_length_of_mem hy
      omega
    · exact hle y (List.mem_append_right _ (List.mem_cons_of_mem x hy))
  · rintro ⟨before, after, rfl, hbefore, hafter⟩
    have hle : ∀ y ∈ before ++ x :: after, g.rank (edge x) ≤ g.rank (edge y) := fun y hy => by
      rcases List.mem_append.1 hy with hy | hy
      · exact (hbefore y hy).le
      · rcases List.mem_cons.1 hy with rfl | hy
        · exact le_rfl
        · exact hafter y hy
    have hnot : ∀ y, g.rank (edge y) ≤ g.rank (edge x) → y ∉ before := fun y hge hy =>
      (hbefore y hy).not_ge hge
    refine ⟨List.mem_append_right _ List.mem_cons_self, hle, fun y hy hge => ?_⟩
    rw [List.idxOf_append_of_notMem (hnot x le_rfl), List.idxOf_append_of_notMem (hnot y hge),
      List.idxOf_cons_self]
    exact Nat.le_add_right _ _

/-- The best of several edges is preferred to those before it, and none of those after it is
preferred to it. -/
theorem best?_eq_some_iff {es : List Edge} {e : Edge} :
    g.best? es = some e ↔ ∃ before after, es = before ++ e :: after ∧
      (∀ e' ∈ before, g.rank e < g.rank e') ∧ ∀ e' ∈ after, g.rank e ≤ g.rank e' :=
  bestOn_eq_some_iff

/-! ### Ties -/

/-- Holds of two edges neither of which is preferred to the other. -/
def Ties (g : RuleSet) (e₁ e₂ : Edge) : Prop :=
  g.prefers e₁ e₂ = false ∧ g.prefers e₂ e₁ = false

theorem prefers_eq_false_iff {e₁ e₂ : Edge} :
    g.prefers e₁ e₂ = false ↔ g.rank e₂ ≤ g.rank e₁ := by
  rw [← Bool.not_eq_true, prefers_iff_rank_lt, not_lt]

theorem ties_iff_rank_eq {e₁ e₂ : Edge} : g.Ties e₁ e₂ ↔ g.rank e₁ = g.rank e₂ := by
  rw [Ties, prefers_eq_false_iff, prefers_eq_false_iff, and_comm]
  exact le_antisymm_iff.symm

/-- The best of several edges is the earliest to which none of them is preferred. -/
theorem best?_eq_find? (es : List Edge) :
    g.best? es = es.find? fun e => es.all fun e' => !g.prefers e' e := by
  cases hbest : g.best? es with
  | none =>
    rw [best?_eq_none_iff] at hbest
    rw [hbest, List.find?_nil]
  | some e =>
    have hleast : ∀ e' ∈ es, g.rank e ≤ g.rank e' := fun e' he' => rank_le_of_best? hbest he'
    obtain ⟨before, after, hes, hbefore, -⟩ := best?_eq_some_iff.1 hbest
    refine (List.find?_eq_some_iff_append.2 ⟨?_, before, after, hes, fun e' he' => ?_⟩).symm
    · simpa [prefers_eq_false_iff] using hleast
    · -- The best edge itself is preferred to those before it.
      have hbeaten : g.prefers e e' := prefers_iff_rank_lt.2 (hbefore e' he')
      simpa using ⟨e, mem_of_best? hbest, hbeaten⟩

theorem exists_ties_of_perm {es es' : List Edge} {e : Edge} (hperm : es.Perm es')
    (h : g.best? es = some e) : ∃ e', g.best? es' = some e' ∧ g.Ties e e' := by
  cases h' : g.best? es' with
  | none =>
    obtain rfl := best?_eq_none_iff.1 h'
    rw [hperm.eq_nil] at h
    cases h
  | some e' =>
    refine ⟨e', rfl, ties_iff_rank_eq.2 (le_antisymm ?_ ?_)⟩
    · exact rank_le_of_best? h (hperm.mem_iff.2 (mem_of_best? h'))
    · exact rank_le_of_best? h' (hperm.mem_iff.1 (mem_of_best? h))

/-- **The preference is a strict weak order.** No edge is preferred to itself, nor two edges to each
other; the preference is transitive, and so are its ties. An edge for the start symbol is preferred
to every other. The best of several edges is missing if there are none, and otherwise it is the
earliest to which none of them is preferred. In another order of the same edges, the best edge is
one that ties with it. -/
theorem strictWeakOrder_prefers (g : RuleSet) :
    (∀ e, ¬ g.prefers e e) ∧
      (∀ e₁ e₂, g.prefers e₁ e₂ → ¬ g.prefers e₂ e₁) ∧
      (∀ e₁ e₂ e₃, g.prefers e₁ e₂ → g.prefers e₂ e₃ → g.prefers e₁ e₃) ∧
      (∀ e₁ e₂ e₃, g.Ties e₁ e₂ → g.Ties e₂ e₃ → g.Ties e₁ e₃) ∧
      (∀ e₁ e₂, e₁.head = g.start → e₂.head ≠ g.start → g.prefers e₁ e₂) ∧
      (∀ es, g.best? es = none ↔ es = []) ∧
      (∀ es, g.best? es = es.find? fun e => es.all fun e' => !g.prefers e' e) ∧
      ∀ es es' e, es.Perm es' → g.best? es = some e →
        ∃ e', g.best? es' = some e' ∧ g.Ties e e' := by
  simp only [prefers_iff_rank_lt, ties_iff_rank_eq]
  refine ⟨fun e => lt_irrefl _, fun e₁ e₂ h => h.asymm, fun e₁ e₂ e₃ h h' => h.trans h',
    fun e₁ e₂ e₃ h h' => h.trans h', fun e₁ e₂ => rank_lt_of_start, fun es => best?_eq_none_iff,
    best?_eq_find?, fun es es' e hperm h => ?_⟩
  obtain ⟨e', he', hties⟩ := exists_ties_of_perm hperm h
  exact ⟨e', he', ties_iff_rank_eq.1 hties⟩

end Chunker.RuleSet
