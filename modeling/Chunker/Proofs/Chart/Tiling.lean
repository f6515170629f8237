import Chunker.Chart.Coord
import Mathlib.Algebra.Order.Ring.Nat

/-!
# Consecutive cells

Cells are consecutive from one position to another if each begins where the one before it stops.
They then cover every word between the two positions exactly once.

## Main definitions

* `Coord.Consecutive` : cells that follow one another between two positions.

## Main results

* `Coord.Consecutive.eq_singleton` : a cell as long as the whole is the only one.
* `Coord.Consecutive.add_sum` : the lengths of the cells add up.
-/

namespace Chunker.Coord

/-- Cells that follow one another from a position up to another. -/
def Consecutive : Nat → Nat → List Coord → Prop
  | lo, hi, [] => lo = hi
  | lo, hi, c :: cs => c.start = lo ∧ Consecutive c.stop hi cs

theorem start_lt_stop (c : Coord) : c.start < c.stop := by
  rw [stop]
  omega

theorem consecutive_singleton (c : Coord) : Consecutive c.start c.stop [c] :=
  ⟨rfl, rfl⟩

/-- Runs of consecutive cells can be joined, and divided anywhere. -/
theorem consecutive_append {lo hi : Nat} {cs ds : List Coord} :
    Consecutive lo hi (cs ++ ds) ↔ ∃ mid, Consecutive lo mid cs ∧ Consecutive mid hi ds := by
  induction cs generalizing lo with
  | nil =>
    constructor
    · exact fun h => ⟨lo, rfl, h⟩
    · rintro ⟨_, rfl, h⟩
      exact h
  | cons c cs ih =>
    simp only [List.cons_append, Consecutive, ih]
    constructor
    · rintro ⟨hc, mid, h, h'⟩
      exact ⟨mid, ⟨hc, h⟩, h'⟩
    · rintro ⟨mid, ⟨hc, h⟩, h'⟩
      exact ⟨hc, mid, h, h'⟩

namespace Consecutive

variable {lo hi : Nat} {cs : List Coord}

/-- The lengths of consecutive cells add up to the length of the whole. -/
theorem add_sum (h : Consecutive lo hi cs) : lo + (cs.map fun c => c.span + 1).sum = hi := by
  induction cs generalizing lo with
  | nil => simpa [Consecutive] using h
  | cons c cs ih =>
    obtain ⟨rfl, h⟩ := h
    rw [List.map_cons, List.sum_cons, ← ih h, stop]
    omega

theorem le (h : Consecutive lo hi cs) : lo ≤ hi := by
  have := h.add_sum
  omega

theorem bounds (h : Consecutive lo hi cs) {c : Coord} (hc : c ∈ cs) :
    lo ≤ c.start ∧ c.stop ≤ hi := by
  obtain ⟨before, after, rfl⟩ := List.append_of_mem hc
  obtain ⟨mid, h₁, rfl, h₂⟩ := consecutive_append.1 h
  exact ⟨h₁.le, h₂.le⟩

theorem exists_mem {j : Nat} (h : Consecutive lo hi cs) (hlo : lo ≤ j) (hhi : j < hi) :
    ∃ c ∈ cs, c.start ≤ j ∧ j < c.stop := by
  induction cs generalizing lo with
  | nil =>
    obtain rfl := h
    omega
  | cons c cs ih =>
    obtain ⟨rfl, h⟩ := h
    by_cases hj : j < c.stop
    · exact ⟨c, List.mem_cons_self, hlo, hj⟩
    · obtain ⟨d, hd, hdj⟩ := ih h (Nat.le_of_not_lt hj)
      exact ⟨d, List.mem_cons_of_mem c hd, hdj⟩

theorem eq_nil (h : Consecutive lo lo cs) : cs = [] := by
  cases cs with
  | nil => rfl
  | cons c cs =>
    obtain ⟨rfl, h⟩ := h
    have := h.le
    have := c.start_lt_stop
    omega

theorem ne_nil (h : Consecutive lo hi cs) (hlt : lo < hi) : cs ≠ [] := by
  rintro rfl
  exact hlt.ne h

/-- A cell as long as the whole is the only one. -/
theorem eq_singleton {c d : Coord} (h : Consecutive c.start c.stop cs) (hd : d ∈ cs)
    (hspan : c.span ≤ d.span) : cs = [c] := by
  obtain ⟨before, after, rfl⟩ := List.append_of_mem hd
  obtain ⟨mid, h₁, rfl, h₂⟩ := consecutive_append.1 h
  have hle₁ := h₁.le
  have hle₂ := h₂.le
  have hstart : c.start = d.start := by simp only [stop] at *; omega
  have hstop : d.stop = c.stop := by simp only [stop] at *; omega
  rw [hstart] at h₁
  rw [hstop] at h₂
  have hcd : d = c := by
    obtain ⟨_, _⟩ := c
    obtain ⟨_, _⟩ := d
    simp only [stop, mk.injEq] at *
    omega
  rw [h₁.eq_nil, h₂.eq_nil, hcd]
  rfl

/-- Of several consecutive cells each is shorter than the whole. -/
theorem span_lt_or_eq_singleton {c d : Coord} (h : Consecutive c.start c.stop cs) (hd : d ∈ cs) :
    d.span < c.span ∨ cs = [c] :=
  (Nat.lt_or_ge d.span c.span).imp_right (h.eq_singleton hd)

/-- As many cells as positions are cells of one word each. -/
theorem length_eq_iff (h : Consecutive lo hi cs) :
    lo + cs.length = hi ↔ ∀ c ∈ cs, c.span = 0 := by
  have hsum : (cs.map fun c => c.span + 1).sum = (cs.map span).sum + cs.length := by
    clear h
    induction cs with
    | nil => rfl
    | cons c cs ih =>
      rw [List.map_cons, List.map_cons, List.sum_cons, List.sum_cons, List.length_cons, ih]
      omega
  have hzero : (cs.map span).sum = 0 ↔ ∀ c ∈ cs, c.span = 0 := by
    rw [List.sum_eq_zero_iff_forall_eq_nat, List.forall_mem_map]
  rw [← hzero, ← h.add_sum, hsum]
  omega

theorem flatMap {α : Type} {ps : List (α × Coord)} (h : Consecutive lo hi (ps.map Prod.snd))
    {f : α × Coord → List Coord} (hf : ∀ p ∈ ps, Consecutive p.2.start p.2.stop (f p)) :
    Consecutive lo hi (ps.flatMap f) := by
  induction ps generalizing lo with
  | nil => exact h
  | cons p ps ih =>
    obtain ⟨rfl, h⟩ := h
    have hrest := ih h fun p' hp' => hf p' (List.mem_cons_of_mem p hp')
    exact consecutive_append.2 ⟨p.2.stop, hf p List.mem_cons_self, hrest⟩

end Consecutive

end Chunker.Coord
