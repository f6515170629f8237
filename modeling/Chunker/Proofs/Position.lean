import Mathlib.Data.List.Basic

/-!
# Places in joined lists

The edges of a cell and the rules that a category starts are lists joined from parts, and what
matters is what stands before an entry. An entry of a joined list is found in one of the parts,
and what stands before it in its part stands before it in the whole.

## Main results

* `append_eq_append_cons` : the place of an entry of two lists in a row.
* `mem_or_eq_or_mem_of_append_cons_eq` : the places of two entries of one list.
* `exists_of_flatMap_eq_append_cons` : the place of an entry of several lists in a row.
-/

namespace Chunker

variable {α β : Type} {y : β}

/-- An entry of two lists in a row is in the first one, or it is in the second one and all of the
first stands before it. -/
theorem append_eq_append_cons {xs ys before after : List β}
    (h : xs ++ ys = before ++ y :: after) :
    (∃ after', xs = before ++ y :: after') ∨
      ∃ before', before = xs ++ before' ∧ ys = before' ++ y :: after := by
  rcases List.append_eq_append_iff.1 h with ⟨zs, hbefore, hys⟩ | ⟨zs, hxs, hrest⟩
  · exact .inr ⟨zs, hbefore, hys⟩
  · cases zs with
    | nil => exact .inr ⟨[], by simpa using hxs.symm, by simpa using hrest.symm⟩
    | cons z zs =>
      obtain ⟨rfl, -⟩ := List.cons.inj hrest
      exact .inl ⟨zs, hxs⟩

/-- Of two entries at places of one list, one stands before the other, or they are the same. -/
theorem mem_or_eq_or_mem_of_append_cons_eq {before after before' after' : List β} {y' : β}
    (h : before ++ y :: after = before' ++ y' :: after') : y' ∈ before ∨ y' = y ∨ y ∈ before' := by
  rcases append_eq_append_cons h with ⟨after'', rfl⟩ | ⟨between, rfl, hcons⟩
  · exact .inl (List.mem_append_right _ List.mem_cons_self)
  · cases between with
    | nil => exact .inr (.inl (List.cons.inj hcons).1.symm)
    | cons z zs =>
      obtain ⟨rfl, -⟩ := List.cons.inj hcons
      exact .inr (.inr (List.mem_append_right _ List.mem_cons_self))

/-- An entry of several lists in a row is in one of them, and what stands before it there stands
before it in the whole. -/
theorem exists_of_flatMap_eq_append_cons {f : α → List β} {xs : List α} {before after : List β}
    (h : xs.flatMap f = before ++ y :: after) :
    ∃ x ∈ xs, ∃ before' after', f x = before' ++ y :: after' ∧ before' ⊆ before := by
  induction xs generalizing before with
  | nil => simp at h
  | cons x xs ih =>
    rw [List.flatMap_cons] at h
    rcases append_eq_append_cons h with ⟨after', hx⟩ | ⟨before', rfl, hxs⟩
    · exact ⟨x, List.mem_cons_self, before, after', hx, List.Subset.refl _⟩
    · obtain ⟨x', hx', before'', after', hf, hsub⟩ := ih hxs
      exact ⟨x', List.mem_cons_of_mem x hx', before'', after', hf,
        List.Subset.trans hsub (List.subset_append_right _ _)⟩

end Chunker
