import Chunker.Proofs.Chart.Search
import Chunker.Proofs.Chunking.Slots

/-!
# When chunking ends

The extraction of a tree has no bound of its own, and where it does not end, the work on its
sentence has no outcome. With a bound there is one, which reports that the bound has been reached.
If no word carries a tag that rules make, the report stands for work that does not end and for
nothing else: whatever the work without a bound comes to is the outcome with it, and it comes to
nothing where the bound is reported.

## Main definitions

* `ChunkError.isEndless` : the reports of the bound.
* `RuleSet.ComesTo` : what the work on a tag sequence comes to without a bound.
* `RuleSet.ChunkingEnds` : the sentences on which the work ends.

## Main results

* `RuleSet.comesTo_iff` : what the work on a tag sequence comes to is its outcome with the bound.
* `RuleSet.chunkingEnds_iff` : the work on a sentence ends unless the bound is reported.
-/

namespace Chunker

/-- Holds of the reports that a search has reached its bound. -/
def ChunkError.isEndless : ChunkError → Bool
  | tree (.endless _ _) => true
  | _ => false

theorem ChunkError.isEndless_tree_iff {e : TreeError} :
    (tree e).isEndless ↔ ∃ x c, e = .endless x c := by
  cases e <;> simp [isEndless]

namespace RuleSet

open Chart

variable {g : RuleSet} {s : Sentence} {k : Nat}

/-! ### One sequence -/

/-- What the work on a tag sequence comes to if the extraction of its tree has no bound: an error of
the chart or of the extraction, or the tree, if it has a leaf for each word. -/
inductive ComesTo (g : RuleSet) (s : Sentence) (k : Nat) : Except ChunkError Tree → Prop
  | unparsed {e : ParseError} (he : ((load g s k).parse g).1 = .error e) :
      ComesTo g s k (.error (.parse e))
  | unextracted {e : TreeError} (hparse : ((load g s k).parse g).1 = .ok ())
      (he : Extracts g (parsed g s k) (parsed g s k).top (.error e)) :
      ComesTo g s k (.error (.tree e))
  | extracted {t : Tree} (hparse : ((load g s k).parse g).1 = .ok ())
      (ht : Extracts g (parsed g s k) (parsed g s k).top (.ok t)) :
      ComesTo g s k (s.bindTree k t)

theorem not_isEndless_of_bindTree {t : Tree} {e : ChunkError} (h : s.bindTree k t = .error e) :
    ¬ e.isEndless := by
  rw [Sentence.bindTree] at h
  split at h
  · obtain rfl := Except.error.inj h
    simp [ChunkError.isEndless]
  · cases h

section Sequence

variable (hg : g.Loaded) (htags : ∀ w ∈ s.words, ∀ a ∈ w.analyses k, a.tag ∉ g.nonterminals)

include hg htags

private theorem extracts_top_iff (hparse : ((load g s k).parse g).1 = .ok ())
    {r : Except TreeError Tree} :
    Extracts g (parsed g s k) (parsed g s k).top r ↔
      ((parsed g s k).extract g (parsed g s k).top).1 = r ∧ ∀ x c, r ≠ .error (.endless x c) := by
  have hsize : (parsed g s k).size = s.size := size_parse g (load g s k)
  have htop : (parsed g s k).top.within s.size :=
    hsize ▸ within_top (hsize.trans_ne (parse_ok_iff.1 hparse).1)
  exact extracts_iff hg htags htop

/-- What the work on a sequence comes to is its outcome with the bound, unless the bound is
reported. -/
theorem comesTo_iff {r : Except ChunkError Tree} :
    g.ComesTo s k r ↔ (g.chunkSequence s k).1 = r ∧ ∀ e, r = .error e → ¬ e.isEndless := by
  rw [chunkSequence_fst]
  cases hparse : ((load g s k).parse g).1 with
  | error e =>
    constructor
    · rintro (he | ⟨hok, -⟩ | ⟨hok, -⟩)
      · obtain rfl := Except.error.inj (hparse.symm.trans he)
        exact ⟨rfl, fun _ h => by cases h; simp [ChunkError.isEndless]⟩
      · cases hparse.symm.trans hok
      · cases hparse.symm.trans hok
    · rintro ⟨rfl, -⟩
      exact .unparsed hparse
  | ok _ =>
    have htop {r : Except TreeError Tree} := extracts_top_iff hg htags hparse (r := r)
    constructor
    · rintro (he | ⟨-, he⟩ | ⟨-, ht⟩)
      · cases hparse.symm.trans he
      · obtain ⟨he, hend⟩ := htop.1 he
        rw [he]
        refine ⟨rfl, fun _ h => ?_⟩
        cases h
        rw [ChunkError.isEndless_tree_iff]
        rintro ⟨x, c, rfl⟩
        exact hend x c rfl
      · rw [(htop.1 ht).1]
        exact ⟨rfl, fun _ => not_isEndless_of_bindTree⟩
    · rintro ⟨rfl, hend⟩
      cases hextract : ((parsed g s k).extract g (parsed g s k).top).1 with
      | error e =>
        rw [hextract] at hend
        refine .unextracted hparse (htop.2 ⟨hextract, fun x c h => ?_⟩)
        exact hend _ rfl (ChunkError.isEndless_tree_iff.2 ⟨x, c, Except.error.inj h⟩)
      | ok t => exact .extracted hparse (htop.2 ⟨hextract, fun x c h => by cases h⟩)

theorem exists_comesTo_iff :
    (∃ r, g.ComesTo s k r) ↔ ∀ e, (g.chunkSequence s k).1 = .error e → ¬ e.isEndless := by
  constructor
  · rintro ⟨r, h⟩
    obtain ⟨rfl, hend⟩ := (comesTo_iff hg htags).1 h
    exact hend
  · exact fun h => ⟨_, (comesTo_iff hg htags).2 ⟨rfl, h⟩⟩

end Sequence

/-! ### One sentence -/

/-- Holds of a sentence if the work on each tag sequence comes to something, given that the
sequences before it have got their trees. -/
def ChunkingEnds (g : RuleSet) (s : Sentence) : Prop :=
  ∀ k < s.sequences, (∀ j < k, ∃ t, g.ComesTo s j (.ok t)) → ∃ r, g.ComesTo s k r

/-- **The work on a sentence ends unless the bound is reported.** -/
theorem chunkingEnds_iff (hg : g.Loaded)
    (htags : ∀ k, ∀ w ∈ s.words, ∀ a ∈ w.analyses k, a.tag ∉ g.nonterminals) :
    g.ChunkingEnds s ↔ ∀ e, (g.chunk s).result = .error e → ¬ e.isEndless := by
  obtain ⟨m, hm⟩ := g.exists_chunkedUpTo s
  have htree (k : Nat) (hk : k < m) : ∃ t, g.ComesTo s k (.ok t) := by
    obtain ⟨t, ht, -⟩ := hm.tree k hk
    exact ⟨t, (comesTo_iff hg (htags k)).2 ⟨ht, fun e h => by cases h⟩⟩
  constructor
  · intro hends e he
    rcases hm.outcome with ⟨hok, -⟩ | ⟨_, herr, hlt, hfail⟩
    · cases hok.symm.trans he
    · obtain rfl := Except.error.inj (herr.symm.trans he)
      exact (exists_comesTo_iff hg (htags m)).1 (hends m hlt htree) _ hfail
  · intro hend k hk hbefore
    rcases hm.outcome with ⟨-, rfl⟩ | ⟨e, herr, -, hfail⟩
    · obtain ⟨t, ht⟩ := htree k hk
      exact ⟨_, ht⟩
    · rcases lt_trichotomy k m with hlt | rfl | hgt
      · obtain ⟨t, ht⟩ := htree k hlt
        exact ⟨_, ht⟩
      · refine (exists_comesTo_iff hg (htags k)).2 fun e' he' => hend e' ?_
        rw [herr, Except.error.inj (hfail.symm.trans he')]
      · -- The sequence that failed comes before this one, and has no tree.
        obtain ⟨t, ht⟩ := hbefore m hgt
        cases hfail.symm.trans ((comesTo_iff hg (htags m)).1 ht).1

end RuleSet

end Chunker
