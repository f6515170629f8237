import Chunker.Proofs.Chunking.Sequences

/-!
# Marks of heads and head words

The head word of a tree is found along the marks of heads, from a node to its marked child. If
every inner node has exactly one marked child and every leaf has a word, the way ends at a leaf of
the tree. Neither the words nor the labels nor the identifiers of the nodes matter for this, so a
tree may be labelled, bound to words and numbered at will.

## Main definitions

* `Tree.heads` : the number of trees that are marked as heads.
* `Tree.HasOneHead` : a leaf, or a node with exactly one marked child.
* `Tree.marks` : what is left of a tree besides its labels, words and identifiers.

## Main results

* `Tree.exists_headWord` : the head word of a tree is the word of one of its leaves.
* `Sentence.marks_of_bindTree` : binding to words leaves the marks and gives every leaf a word.
-/

namespace Chunker

namespace Tree

variable {t : Tree} {ts us : List Tree}

/-! ### Marks -/

/-- The number of trees that are marked as heads. -/
def heads (ts : List Tree) : Nat :=
  ts.countP fun t => t.root.isHead

/-- Holds of a leaf, and of a node exactly one of whose children is marked as its head. -/
def HasOneHead (t : Tree) : Prop :=
  t.children ≠ [] → heads t.children = 1

theorem heads_cons (t : Tree) (ts : List Tree) :
    heads (t :: ts) = heads ts + if t.root.isHead then 1 else 0 :=
  List.countP_cons

theorem heads_append (ts us : List Tree) : heads (ts ++ us) = heads ts + heads us :=
  List.countP_append

theorem heads_map_markHead_false (ts : List Tree) :
    heads (ts.map (·.markHead false)) = 0 := by
  rw [heads, List.countP_map, List.countP_eq_zero]
  simp [markHead, withRoot, root]

mutual

/-- What is left of a tree besides its labels, words and identifiers. -/
def marks : Tree → Tree
  | node n ts => node ⟨"", none, n.isHead, none⟩ (marksOf ts)

/-- What is left of several trees besides their labels, words and identifiers. -/
def marksOf : List Tree → List Tree
  | [] => []
  | t :: ts => marks t :: marksOf ts

end

theorem marksOf_eq_map (ts : List Tree) : marksOf ts = ts.map marks := by
  induction ts with
  | nil => rw [marksOf, List.map_nil]
  | cons t ts ih => rw [marksOf, List.map_cons, ih]

theorem marksOf_singleton (t : Tree) : marksOf [t] = [t.marks] :=
  marksOf_eq_map [t]

theorem children_marks (t : Tree) : t.marks.children = t.children.map marks := by
  obtain ⟨n, ts⟩ := t
  rw [marks, marksOf_eq_map]
  rfl

theorem marksOf_children_eq {t' : Tree} (h : t'.marks = t.marks) :
    marksOf t'.children = marksOf t.children := by
  rw [marksOf_eq_map, marksOf_eq_map, ← children_marks, h, children_marks]

theorem isHead_root_marks (t : Tree) : t.marks.root.isHead = t.root.isHead := by
  obtain ⟨n, ts⟩ := t
  rw [marks]
  rfl

theorem hasOneHead_marks_iff : t.marks.HasOneHead ↔ t.HasOneHead := by
  rw [HasOneHead, HasOneHead, children_marks, heads, List.countP_map, ne_eq, List.map_eq_nil_iff]
  simp only [heads, Function.comp_def, isHead_root_marks]

mutual

theorem subtrees_marks (t : Tree) : t.marks.subtrees = t.subtrees.map marks := by
  match t with
  | node n ts => rw [marks, subtrees, subtrees, List.map_cons, marks, subtreesOf_marksOf ts]

theorem subtreesOf_marksOf (ts : List Tree) :
    subtreesOf (marksOf ts) = (subtreesOf ts).map marks := by
  match ts with
  | [] => rw [marksOf, subtreesOf, List.map_nil]
  | t :: ts =>
    rw [marksOf, subtreesOf, subtreesOf, List.map_append, subtrees_marks t, subtreesOf_marksOf ts]

end

/-- Whether inner nodes have one head each is seen from the marks. -/
theorem all_hasOneHead_iff_of_marksOf_eq (h : marksOf ts = marksOf us) :
    All HasOneHead ts ↔ All HasOneHead us := by
  have hmarks (ts : List Tree) : All HasOneHead (marksOf ts) ↔ All HasOneHead ts := by
    rw [All, subtreesOf_marksOf, List.forall_mem_map]
    simp only [hasOneHead_marks_iff, All]
  rw [← hmarks ts, h, hmarks us]

section MapLeaves

variable {α : Type} (f : Node → α → Node)

mutual

theorem marks_mapLeaves (hf : ∀ n a, (f n a).isHead = n.isHead) (t : Tree) (as : List α) :
    (mapLeaves f t as).1.marks = t.marks := by
  match t with
  | node n [] =>
    cases as with
    | nil => rw [mapLeaves]; rfl
    | cons a as => rw [mapLeaves_leaf, marks, marks, hf]
  | node n (t :: ts) =>
    rw [mapLeaves_node f (List.cons_ne_nil t ts), marks, marks,
      marksOf_mapLeavesOf hf (t :: ts) as]

theorem marksOf_mapLeavesOf (hf : ∀ n a, (f n a).isHead = n.isHead) (ts : List Tree)
    (as : List α) : marksOf (mapLeavesOf f ts as).1 = marksOf ts := by
  match ts with
  | [] => rw [mapLeavesOf]
  | t :: ts =>
    rw [mapLeavesOf_cons, marksOf, marksOf, marks_mapLeaves hf t as,
      marksOf_mapLeavesOf hf ts]

end

end MapLeaves

section Numbering

variable (sentence : String)

mutual

theorem marks_numberFrom (t : Tree) (n : Nat) : (numberFrom sentence t n).1.marks = t.marks := by
  match t with
  | node v ts => rw [numberFrom_node, marks, marks, marksOf_numberFromOf ts (n + 1)]

theorem marksOf_numberFromOf (ts : List Tree) (n : Nat) :
    marksOf (numberFromOf sentence ts n).1 = marksOf ts := by
  match ts with
  | [] => rw [numberFromOf]
  | t :: ts =>
    rw [numberFromOf_cons, marksOf, marksOf, marks_numberFrom t n, marksOf_numberFromOf ts]

end

end Numbering

/-! ### Head words -/

mutual

/-- The head word of a tree each of whose inner nodes has one head is the word of a leaf. -/
theorem exists_headWord (t : Tree) (h : All HasOneHead [t])
    (hwords : ∀ u ∈ t.frontier, ∃ w, u.root.word = some w) :
    ∃ u ∈ t.frontier, ∃ w, u.root.word = some w ∧ t.headWord = some w := by
  match t with
  | node n [] =>
    rw [frontier_leaf] at hwords ⊢
    obtain ⟨w, hw⟩ := hwords _ List.mem_cons_self
    exact ⟨_, List.mem_cons_self, w, hw, by rw [headWord]; exact hw⟩
  | node n (t :: ts) =>
    obtain ⟨hone, hchildren⟩ := all_singleton_iff.1 h
    have hpos : 0 < heads (t :: ts) := (hone (List.cons_ne_nil t ts)).symm ▸ Nat.one_pos
    rw [frontier_node (List.cons_ne_nil t ts)] at hwords ⊢
    rw [headWord]
    exact exists_headWordOf (t :: ts) hchildren hpos hwords

theorem exists_headWordOf (ts : List Tree) (h : All HasOneHead ts) (hpos : 0 < heads ts)
    (hwords : ∀ u ∈ frontierOf ts, ∃ w, u.root.word = some w) :
    ∃ u ∈ frontierOf ts, ∃ w, u.root.word = some w ∧ headWordOf ts = some w := by
  match ts with
  | [] => simp [heads] at hpos
  | t :: ts =>
    obtain ⟨ht, hts⟩ := all_cons_iff.1 h
    rw [frontierOf, List.forall_mem_append] at hwords
    rw [frontierOf, headWordOf]
    by_cases hmark : t.root.isHead
    · obtain ⟨u, hu, hw⟩ := exists_headWord t ht hwords.1
      rw [if_pos hmark]
      exact ⟨u, List.mem_append_left _ hu, hw⟩
    · have hpos' : 0 < heads ts := by
        rwa [heads_cons, if_neg hmark] at hpos
      obtain ⟨u, hu, hw⟩ := exists_headWordOf ts hts hpos' hwords.2
      rw [if_neg hmark]
      exact ⟨u, List.mem_append_right _ hu, hw⟩

end

/-- Below trees with the marks of trees whose inner nodes have one head each, the head word of every
subtree is the word of a leaf of this subtree. -/
theorem exists_headWord_of_marksOf_eq (h : All HasOneHead us) (hmarks : marksOf ts = marksOf us)
    (hwords : ∀ u ∈ frontierOf ts, ∃ w, u.root.word = some w) {u : Tree}
    (hu : u ∈ subtreesOf ts) :
    ∃ leaf ∈ u.frontier, ∃ w, leaf.root.word = some w ∧ u.headWord = some w := by
  have h := (all_hasOneHead_iff_of_marksOf_eq hmarks).2 h
  have hsub := subtrees_subset_subtreesOf ts hu
  refine exists_headWord u (fun v hv => h v (hsub ?_)) fun v hv => hwords v ?_
  · simpa [subtreesOf] using hv
  · rw [frontier_eq_filter, List.mem_filter] at hv
    rw [frontierOf_eq_filter, List.mem_filter]
    exact ⟨hsub hv.1, hv.2⟩

end Tree

/-- Binding to the words of a sentence leaves the marks, and every leaf has a word after it. -/
theorem Sentence.marks_of_bindTree {s : Sentence} {k : Nat} {t t' : Tree}
    (h : s.bindTree k t = .ok t') :
    t'.marks = t.marks ∧ ∀ leaf ∈ t'.frontier, ∃ w, leaf.root.word = some w := by
  constructor
  · rw [bindTree] at h
    split at h
    · cases h
    · obtain rfl := Except.ok.inj h
      rw [Tree.numbered, Tree.marks_numberFrom]
      exact Tree.marks_mapLeaves (Node.bindWord k) (fun _ _ => rfl) t s.words
  · intro leaf hleaf
    have hword : leaf.root.word ∈ t'.frontier.map (·.root.word) := List.mem_map_of_mem hleaf
    rw [map_word_frontier_of_bindTree h] at hword
    obtain ⟨w, -, hw⟩ := List.mem_map.1 hword
    exact ⟨w, hw.symm⟩

end Chunker
