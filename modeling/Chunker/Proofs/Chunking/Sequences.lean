import Chunker.Chunking
import Chunker.Proofs.Chart.Filling
import Chunker.Proofs.Tree
import Mathlib.Data.List.Basic

/-!
# Trees for the tag sequences of a sentence

The tag sequences of a sentence are worked on one after the other. A tree that a sequence has got
changes nothing for the others, because charts are loaded from the words alone. So the work
succeeds if and only if it succeeds for each sequence by itself, and then each sequence has the
tree that it gets by itself.

## Main results

* `Sentence.tree?_setTree_self`, `Sentence.tree?_setTree_of_ne` : the tree of a sequence after one
  has been set.
* `Sentence.map_frontier_of_bindTree` : the leaves of a tree that is matched with words.
* `RuleSet.chunkSequences_eq_ok_iff`, `RuleSet.tree?_chunkSequences_of_mem` : the outcome and the
  trees of several sequences.
-/

namespace Chunker

/-! ### Trees of a sentence -/

namespace Sentence

variable {s : Sentence} {t t' : Tree} {k j : Nat}

/-- The tree that has been set for a sequence is there. -/
theorem tree?_setTree_self (s : Sentence) (k : Nat) (t : Tree) :
    (s.setTree k t).tree? k = some t := by
  have hlt : k < (s.trees ++ List.replicate (k + 1 - s.trees.length) none).length := by
    rw [List.length_append, List.length_replicate]
    omega
  rw [setTree, tree?, List.getElem?_set_self hlt]
  rfl

/-- Setting the tree of a sequence leaves those of the others. -/
theorem tree?_setTree_of_ne (h : j ≠ k) (t : Tree) : (s.setTree k t).tree? j = s.tree? j := by
  rw [setTree, tree?, tree?, List.getElem?_set_ne h.symm, List.getElem?_append]
  split
  · rfl
  · rename_i hlt
    rw [List.getElem?_eq_none (Nat.le_of_not_lt hlt), List.getElem?_replicate]
    split <;> rfl

theorem exists_bindTree_eq_ok_iff :
    (∃ t', s.bindTree k t = .ok t') ↔ t.frontier.length = s.size := by
  rw [bindTree]
  split
  · rename_i h
    exact ⟨fun ⟨_, ht⟩ => (by cases ht), fun h' => absurd h' h⟩
  · rename_i h
    exact ⟨fun _ => not_not.1 h, fun _ => ⟨_, rfl⟩⟩

private theorem zipWith_right {α β γ : Type} (f : β → γ) {xs : List α} {ys : List β}
    (h : ys.length = xs.length) : List.zipWith (fun _ y => f y) xs ys = ys.map f := by
  induction xs generalizing ys with
  | nil =>
    obtain rfl := List.length_eq_zero_iff.1 h
    rfl
  | cons x xs ih =>
    cases ys with
    | nil => cases h
    | cons y ys => rw [List.zipWith_cons_cons, List.map_cons, ih (Nat.succ.inj h)]

/-- What the words give to the leaves of a tree that is matched with them stands at the leaves in
order. -/
theorem map_frontier_of_bindTree {β : Type} {f : Node → β} {b : Word → β}
    (hf : ∀ n, f { n with id := none } = f n) (hb : ∀ n w, f (Node.bindWord k n w) = b w)
    (h : s.bindTree k t = .ok t') :
    t'.frontier.map (fun u => f u.root) = s.words.map b := by
  have hsize : t.frontier.length = s.size := exists_bindTree_eq_ok_iff.1 ⟨t', h⟩
  have hlength : s.words.length = t.frontier.length := hsize.symm
  rw [bindTree, if_neg (not_not.2 hsize)] at h
  obtain rfl := Except.ok.inj h
  have hroots := (Tree.frontier_mapLeaves (Node.bindWord k) t s.words [] hlength).1
  rw [List.append_nil] at hroots
  rw [Tree.map_frontier_numbered s.id _ f hf]
  calc (Tree.mapLeaves (Node.bindWord k) t s.words).1.frontier.map (fun u => f u.root)
      = ((Tree.mapLeaves (Node.bindWord k) t s.words).1.frontier.map Tree.root).map f := by
        rw [List.map_map]
        rfl
    _ = List.zipWith (fun _ w => b w) (t.frontier.map Tree.root) s.words := by
        rw [hroots, List.map_zipWith]
        simp only [hb]
    _ = s.words.map b := by
        exact zipWith_right b (by rw [List.length_map, hlength])

theorem map_word_frontier_of_bindTree (h : s.bindTree k t = .ok t') :
    t'.frontier.map (·.root.word) = s.words.map some :=
  map_frontier_of_bindTree (fun _ => rfl) (fun _ _ => rfl) h

theorem map_label_frontier_of_bindTree (h : s.bindTree k t = .ok t') :
    t'.frontier.map Tree.label = s.words.map (·.tag k) :=
  map_frontier_of_bindTree (fun _ => rfl) (fun _ _ => rfl) h

end Sentence

/-! ### Several sequences -/

namespace RuleSet

variable {g : RuleSet} {s : Sentence} {k j : Nat} {ks : List Nat}

/-- Charts are loaded from the words, so the tree of a sequence does not depend on other trees. -/
theorem chunkSequence_setTree (g : RuleSet) (s : Sentence) (k j : Nat) (t : Tree) :
    g.chunkSequence (s.setTree k t) j = g.chunkSequence s j :=
  rfl

theorem chunkSequence_fst (g : RuleSet) (s : Sentence) (k : Nat) :
    (g.chunkSequence s k).1 =
      match ((Chart.load g s k).parse g).1 with
      | .error e => .error (.parse e)
      | .ok () =>
        match ((Chart.parsed g s k).extract g (Chart.parsed g s k).top).1 with
        | .error e => .error (.tree e)
        | .ok t => s.bindTree k t := by
  rw [chunkSequence, Chart.parsed]
  obtain ⟨outcome, chart⟩ := (Chart.load g s k).parse g
  cases outcome with
  | error e => rfl
  | ok _ =>
    dsimp only
    obtain ⟨outcome, ws⟩ := chart.extract g chart.top
    cases outcome <;> rfl

/-- The work succeeds if it succeeds for each sequence by itself. -/
theorem chunkSequences_eq_ok_iff :
    (g.chunkSequences s ks).result = .ok () ↔ ∀ k ∈ ks, ∃ t, (g.chunkSequence s k).1 = .ok t := by
  induction ks generalizing s with
  | nil => simp [chunkSequences]
  | cons k ks ih =>
    rw [chunkSequences, List.forall_mem_cons]
    split
    · rename_i e ws hk
      simp [hk]
    · rename_i t ws hk
      simp [hk, ih, chunkSequence_setTree]

theorem tree?_chunkSequences_of_notMem (hj : j ∉ ks) :
    (g.chunkSequences s ks).sentence.tree? j = s.tree? j := by
  induction ks generalizing s with
  | nil => rfl
  | cons k ks ih =>
    rw [List.mem_cons, not_or] at hj
    rw [chunkSequences]
    split
    · rfl
    · rename_i t ws hk
      exact (ih hj.2).trans (Sentence.tree?_setTree_of_ne hj.1 t)

/-- Each sequence gets the tree that it gets by itself. -/
theorem tree?_chunkSequences_of_mem (h : (g.chunkSequences s ks).result = .ok ()) {t : Tree}
    (hj : j ∈ ks) (ht : (g.chunkSequence s j).1 = .ok t) :
    (g.chunkSequences s ks).sentence.tree? j = some t := by
  induction ks generalizing s with
  | nil => exact absurd hj List.not_mem_nil
  | cons k ks ih =>
    rw [chunkSequences] at h ⊢
    split at h
    · cases h
    · rename_i t' ws hk
      by_cases hmem : j ∈ ks
      · exact ih h hmem ht
      · obtain rfl : j = k := (List.mem_cons.1 hj).resolve_right hmem
        rw [hk] at ht
        obtain rfl := Except.ok.inj ht
        exact (tree?_chunkSequences_of_notMem hmem).trans (Sentence.tree?_setTree_self s j _)

end RuleSet

end Chunker
