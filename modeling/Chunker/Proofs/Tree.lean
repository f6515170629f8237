import Chunker.Tree

/-!
# The nodes of a tree

What the operations on trees do to the leaves and to the other nodes. Marks of heads and identifiers
leave the leaves in their places, and merging gives every leaf the value at its own place and
leaves the inner nodes. Identifiers count the nodes in pre-order and change nothing else.

## Main definitions

* `Tree.All` : a property of all subtrees of several trees.
* `Tree.unnumberedRoot` : what identifiers leave of a node.

## Main results

* `Tree.map_label_frontier_markHead` : a mark leaves the labels of the leaves.
* `Tree.map_root_frontier_mapLeaves` : the leaves after merging.
* `Tree.leaves_eq_frontier` : a walk meets the leaves from left to right.
* `Tree.subtrees_subset_subtrees` : the subtrees of a subtree.
* `Tree.root_mem_of_mem_subtrees_mapLeaves` : merging leaves the inner nodes.
* `Tree.map_id_subtrees_numbered` : the identifiers of the nodes in pre-order.
* `Tree.map_frontier_numbered` : identifiers leave everything else of the leaves.
* `Tree.text_numbered` : identifiers are not part of the written form.
-/

namespace Chunker.Tree

/-! ### Parts of the frontier -/

theorem frontier_leaf (n : Node) : (node n []).frontier = [node n []] := by
  rw [frontier, List.isEmpty_nil, if_pos rfl]

theorem frontier_node {ts : List Tree} (h : ts ≠ []) (n : Node) :
    (node n ts).frontier = frontierOf ts := by
  rw [frontier, if_neg (by simpa using h)]

theorem frontierOf_append (ts us : List Tree) :
    frontierOf (ts ++ us) = frontierOf ts ++ frontierOf us := by
  induction ts with
  | nil => rw [frontierOf, List.nil_append, List.nil_append]
  | cons t ts ih => rw [List.cons_append, frontierOf, frontierOf, ih, List.append_assoc]

theorem frontierOf_singleton (t : Tree) : frontierOf [t] = t.frontier := by
  rw [frontierOf, frontierOf, List.append_nil]

theorem frontierOf_children_subset (t : Tree) : frontierOf t.children ⊆ t.frontier := by
  obtain ⟨n, ts⟩ := t
  by_cases h : ts = []
  · subst h
    exact List.nil_subset _
  · rw [frontier_node h, children]
    exact List.Subset.refl _

/-! ### Marks -/

/-- A mark of a head leaves the labels of the leaves. -/
theorem map_label_frontier_markHead (t : Tree) (mark : Bool) :
    (t.markHead mark).frontier.map label = t.frontier.map label := by
  obtain ⟨n, ts⟩ := t
  by_cases h : ts = []
  · subst h
    rw [markHead, withRoot, children, frontier_leaf, frontier_leaf]
    rfl
  · rw [markHead, withRoot, children, frontier_node h, frontier_node h]

theorem map_label_frontierOf_markHead (ts : List Tree) (mark : Bool) :
    (frontierOf (ts.map (·.markHead mark))).map label = (frontierOf ts).map label := by
  induction ts with
  | nil => rfl
  | cons t ts ih =>
    rw [List.map_cons, frontierOf, frontierOf, List.map_append, List.map_append, ih,
      map_label_frontier_markHead]

/-! ### Merged values -/

section MapLeaves

variable {α : Type} (f : Node → α → Node)

theorem mapLeaves_leaf (n : Node) (a : α) (as : List α) :
    mapLeaves f (node n []) (a :: as) = (node (f n a) [], as) := by
  simp [mapLeaves]

theorem mapLeaves_node {ts : List Tree} (h : ts ≠ []) (n : Node) (as : List α) :
    mapLeaves f (node n ts) as =
      (node n (mapLeavesOf f ts as).1, (mapLeavesOf f ts as).2) := by
  cases ts with
  | nil => exact absurd rfl h
  | cons t ts => simp [mapLeaves]

theorem mapLeavesOf_cons (t : Tree) (ts : List Tree) (as : List α) :
    mapLeavesOf f (t :: ts) as =
      ((mapLeaves f t as).1 :: (mapLeavesOf f ts (mapLeaves f t as).2).1,
        (mapLeavesOf f ts (mapLeaves f t as).2).2) := by
  simp [mapLeavesOf]

mutual

/-- The leaves after merging: a leaf gets the value at its own place, if there is one, and the
values behind those of the leaves are left over. -/
theorem map_root_frontier_mapLeaves (t : Tree) (as : List α) :
    (mapLeaves f t as).1.frontier.map root =
        (t.frontier.map root).mapIdx (fun i n => as[i]?.elim n (f n)) ∧
      (mapLeaves f t as).2 = as.drop t.frontier.length := by
  match t with
  | node n [] =>
    cases as with
    | nil => simp [mapLeaves, frontier_leaf]
    | cons a as => simp [mapLeaves_leaf, frontier_leaf, root]
  | node n (t :: ts) =>
    have hne : t :: ts ≠ [] := List.cons_ne_nil t ts
    have hne' : (mapLeavesOf f (t :: ts) as).1 ≠ [] := by
      rw [mapLeavesOf_cons]
      exact List.cons_ne_nil _ _
    rw [mapLeaves_node f hne, frontier_node hne, frontier_node hne']
    exact map_root_frontierOf_mapLeavesOf (t :: ts) as

theorem map_root_frontierOf_mapLeavesOf (ts : List Tree) (as : List α) :
    (frontierOf (mapLeavesOf f ts as).1).map root =
        ((frontierOf ts).map root).mapIdx (fun i n => as[i]?.elim n (f n)) ∧
      (mapLeavesOf f ts as).2 = as.drop (frontierOf ts).length := by
  match ts with
  | [] =>
    rw [mapLeavesOf, frontierOf]
    exact ⟨rfl, rfl⟩
  | t :: ts =>
    obtain ⟨hroots, hrest⟩ := map_root_frontier_mapLeaves t as
    obtain ⟨hroots', hrest'⟩ := map_root_frontierOf_mapLeavesOf ts (as.drop t.frontier.length)
    rw [mapLeavesOf_cons, hrest, frontierOf, frontierOf, List.map_append, List.map_append, hroots,
      hroots', List.mapIdx_append, List.length_map, List.length_append, hrest', List.drop_drop]
    simp only [List.getElem?_drop, Nat.add_comm]
    exact ⟨trivial, trivial⟩

end

theorem frontier_mapLeaves (t : Tree) (as bs : List α) (h : as.length = t.frontier.length) :
    (mapLeaves f t (as ++ bs)).1.frontier.map root = List.zipWith f (t.frontier.map root) as ∧
      (mapLeaves f t (as ++ bs)).2 = bs := by
  obtain ⟨hroots, hrest⟩ := map_root_frontier_mapLeaves f t (as ++ bs)
  refine ⟨hroots.trans (List.ext_getElem (by simp [h]) fun i hi hi' => ?_),
    hrest.trans (List.drop_left' h)⟩
  have hlt : i < as.length := by
    rw [List.length_zipWith] at hi'
    omega
  simp [List.getElem?_append_left hlt, hlt]

end MapLeaves

/-! ### Leaves in pre-order -/

mutual

/-- The leaves from left to right are the leaves met in pre-order. -/
theorem frontier_eq_filter (t : Tree) : t.frontier = t.subtrees.filter isLeaf := by
  match t with
  | node n [] => rw [frontier_leaf, subtrees, subtreesOf]; rfl
  | node n (t :: ts) =>
    have hinner : ¬ (node n (t :: ts)).isLeaf := Bool.false_ne_true
    rw [frontier_node (List.cons_ne_nil t ts), subtrees, List.filter_cons_of_neg hinner,
      frontierOf_eq_filter (t :: ts)]

theorem frontierOf_eq_filter (ts : List Tree) :
    frontierOf ts = (subtreesOf ts).filter isLeaf := by
  match ts with
  | [] => rw [frontierOf, subtreesOf, List.filter_nil]
  | t :: ts =>
    rw [frontierOf, subtreesOf, List.filter_append, frontier_eq_filter t, frontierOf_eq_filter ts]

end

/-- A walk meets the leaves from left to right. -/
theorem leaves_eq_frontier (t : Tree) : t.leaves = t.frontier := by
  rw [leaves, preorder_eq_subtrees, frontier_eq_filter]

/-! ### Properties of all subtrees -/

/-- Holds of trees all of whose subtrees have a property. -/
def All (P : Tree → Prop) (ts : List Tree) : Prop :=
  ∀ u ∈ subtreesOf ts, P u

section All

variable {P : Tree → Prop} {t : Tree} {ts us : List Tree}

theorem all_nil : All P [] := by
  simp [All, subtreesOf]

theorem all_append_iff : All P (ts ++ us) ↔ All P ts ∧ All P us := by
  induction ts with
  | nil => simp [All, subtreesOf]
  | cons t ts ih =>
    simp only [All, List.cons_append, subtreesOf, List.forall_mem_append] at ih ⊢
    rw [ih, and_assoc]

theorem all_cons_iff : All P (t :: ts) ↔ All P [t] ∧ All P ts :=
  @all_append_iff P [t] ts

/-- A property of all subtrees of a tree is one of the tree and of all subtrees of its children. -/
theorem all_singleton_iff : All P [t] ↔ P t ∧ All P t.children := by
  obtain ⟨n, ts⟩ := t
  simp [All, subtreesOf, subtrees, children]

theorem all_iff_forall : All P ts ↔ ∀ t ∈ ts, All P [t] := by
  induction ts with
  | nil => simp [all_nil]
  | cons t ts ih => rw [all_cons_iff, ih, List.forall_mem_cons]

/-- A property that does not depend on the mark of the root stays when roots are marked. -/
theorem All.map_markHead (hP : ∀ u mark, P u → P (u.markHead mark)) (h : All P ts) (mark : Bool) :
    All P (ts.map (·.markHead mark)) := by
  rw [all_iff_forall] at h ⊢
  rw [List.forall_mem_map]
  intro t ht
  obtain ⟨hroot, hchildren⟩ := all_singleton_iff.1 (h t ht)
  exact all_singleton_iff.2 ⟨hP t mark hroot, hchildren⟩

end All

mutual

/-- The subtrees of a subtree are subtrees. -/
theorem subtrees_subset_subtrees (t : Tree) {u : Tree} (h : u ∈ t.subtrees) :
    u.subtrees ⊆ t.subtrees := by
  match t with
  | node n ts =>
    rw [subtrees] at h ⊢
    rcases List.mem_cons.1 h with rfl | h
    · rw [subtrees]
      exact List.Subset.refl _
    · exact List.subset_cons_of_subset _ (subtrees_subset_subtreesOf ts h)

theorem subtrees_subset_subtreesOf (ts : List Tree) {u : Tree} (h : u ∈ subtreesOf ts) :
    u.subtrees ⊆ subtreesOf ts := by
  match ts with
  | [] => simp [subtreesOf] at h
  | t :: ts =>
    rw [subtreesOf] at h ⊢
    rcases List.mem_append.1 h with h | h
    · exact List.subset_append_of_subset_left _ (subtrees_subset_subtrees t h)
    · exact List.subset_append_of_subset_right _ (subtrees_subset_subtreesOf ts h)

end

/-! ### Inner nodes -/

section InnerNodes

variable {α : Type} (f : Node → α → Node)

mutual

/-- Merging leaves the inner nodes: each has the root of a subtree of the tree before. -/
theorem root_mem_of_mem_subtrees_mapLeaves (t : Tree) (as : List α) {u : Tree}
    (hu : u ∈ (mapLeaves f t as).1.subtrees) (h : u.isLeaf = false) :
    u.root ∈ t.subtrees.map root := by
  match t with
  | node n [] =>
    -- A leaf stays a leaf, whether or not there is a value for it.
    have hleaf : ∃ m, (mapLeaves f (node n []) as).1 = node m [] := by
      cases as with
      | nil => exact ⟨n, by rw [mapLeaves]; rfl⟩
      | cons a as => exact ⟨f n a, by rw [mapLeaves_leaf]⟩
    obtain ⟨m, hm⟩ := hleaf
    rw [hm, subtrees, subtreesOf, List.mem_singleton] at hu
    rw [hu] at h
    cases h
  | node n (t :: ts) =>
    rw [mapLeaves_node f (List.cons_ne_nil t ts), subtrees, List.mem_cons] at hu
    rw [subtrees, List.map_cons, List.mem_cons]
    rcases hu with rfl | hu
    · exact .inl rfl
    · exact .inr (root_mem_of_mem_subtreesOf_mapLeavesOf (t :: ts) as hu h)

theorem root_mem_of_mem_subtreesOf_mapLeavesOf (ts : List Tree) (as : List α) {u : Tree}
    (hu : u ∈ subtreesOf (mapLeavesOf f ts as).1) (h : u.isLeaf = false) :
    u.root ∈ (subtreesOf ts).map root := by
  match ts with
  | [] =>
    rw [mapLeavesOf, subtreesOf] at hu
    exact absurd hu List.not_mem_nil
  | t :: ts =>
    rw [mapLeavesOf_cons, subtreesOf, List.mem_append] at hu
    rw [subtreesOf, List.map_append, List.mem_append]
    rcases hu with hu | hu
    · exact .inl (root_mem_of_mem_subtrees_mapLeaves t as hu h)
    · exact .inr (root_mem_of_mem_subtreesOf_mapLeavesOf ts _ hu h)

end

end InnerNodes

/-! ### Identifiers -/

/-- A tree's root without its identifier, and whether the tree is a leaf. -/
def unnumberedRoot (t : Tree) : Node × Bool :=
  ({ t.root with id := none }, t.isLeaf)

section Numbering

variable (sentence : String)

theorem numberFrom_node (v : Node) (ts : List Tree) (n : Nat) :
    numberFrom sentence (node v ts) n =
      (node { v with id := some (nodeId sentence n) } (numberFromOf sentence ts (n + 1)).1,
        (numberFromOf sentence ts (n + 1)).2) := by
  simp [numberFrom]

theorem numberFromOf_cons (t : Tree) (ts : List Tree) (n : Nat) :
    numberFromOf sentence (t :: ts) n =
      ((numberFrom sentence t n).1 ::
          (numberFromOf sentence ts (numberFrom sentence t n).2).1,
        (numberFromOf sentence ts (numberFrom sentence t n).2).2) := by
  simp [numberFromOf]

mutual

/-- The identifiers of a tree count from a number, in pre-order, and the next number comes after as
many as there are nodes. -/
theorem map_id_subtrees_numberFrom (t : Tree) (n : Nat) :
    (numberFrom sentence t n).1.subtrees.map (·.root.id) =
        (List.range' n t.subtrees.length).map (fun i => some (nodeId sentence i)) ∧
      (numberFrom sentence t n).2 = n + t.subtrees.length := by
  match t with
  | node v ts =>
    obtain ⟨hids, hnext⟩ := map_id_subtreesOf_numberFromOf ts (n + 1)
    rw [numberFrom_node, subtrees, subtrees, List.map_cons, hids, hnext, List.length_cons,
      List.range'_succ, List.map_cons]
    exact ⟨rfl, by omega⟩

theorem map_id_subtreesOf_numberFromOf (ts : List Tree) (n : Nat) :
    (subtreesOf (numberFromOf sentence ts n).1).map (·.root.id) =
        (List.range' n (subtreesOf ts).length).map (fun i => some (nodeId sentence i)) ∧
      (numberFromOf sentence ts n).2 = n + (subtreesOf ts).length := by
  match ts with
  | [] =>
    rw [numberFromOf, subtreesOf]
    exact ⟨rfl, rfl⟩
  | t :: ts =>
    obtain ⟨hids, hnext⟩ := map_id_subtrees_numberFrom t n
    obtain ⟨hids', hnext'⟩ := map_id_subtreesOf_numberFromOf ts (n + t.subtrees.length)
    rw [numberFromOf_cons, subtreesOf, subtreesOf, List.map_append, List.length_append, hids, hnext,
      hids', hnext', ← List.range'_append_1, List.map_append]
    exact ⟨rfl, by omega⟩

end

mutual

/-- Identifiers leave everything else of the nodes, and the leaves. -/
theorem map_unnumberedRoot_numberFrom (t : Tree) (n : Nat) :
    (numberFrom sentence t n).1.subtrees.map unnumberedRoot = t.subtrees.map unnumberedRoot := by
  match t with
  | node v ts =>
    have hleaf : (numberFromOf sentence ts (n + 1)).1.isEmpty = ts.isEmpty := by
      cases ts with
      | nil => rw [numberFromOf]
      | cons t ts => rw [numberFromOf_cons]; rfl
    rw [numberFrom_node, subtrees, subtrees, List.map_cons, List.map_cons,
      map_unnumberedRoot_numberFromOf ts (n + 1)]
    simp only [unnumberedRoot, root, isLeaf, children, hleaf]

theorem map_unnumberedRoot_numberFromOf (ts : List Tree) (n : Nat) :
    (subtreesOf (numberFromOf sentence ts n).1).map unnumberedRoot =
      (subtreesOf ts).map unnumberedRoot := by
  match ts with
  | [] => rw [numberFromOf]
  | t :: ts =>
    rw [numberFromOf_cons, subtreesOf, subtreesOf, List.map_append, List.map_append,
      map_unnumberedRoot_numberFrom t, map_unnumberedRoot_numberFromOf ts]

end

mutual

theorem text_numberFrom (t : Tree) (n : Nat) : (numberFrom sentence t n).1.text = t.text := by
  match t with
  | node v [] => simp [numberFrom_node, numberFromOf, text, Node.text]
  | node v (t :: ts) =>
    have hchildren := textOf_numberFromOf (t :: ts) (n + 1)
    rw [numberFromOf_cons] at hchildren
    rw [numberFrom_node, numberFromOf_cons, text, text, hchildren]
    rfl

theorem textOf_numberFromOf (ts : List Tree) (n : Nat) :
    textOf (numberFromOf sentence ts n).1 = textOf ts := by
  match ts with
  | [] => rw [numberFromOf]
  | t :: ts =>
    rw [numberFromOf_cons, textOf, textOf, text_numberFrom t, textOf_numberFromOf ts]

end

variable (t : Tree)

/-- Identifiers are not part of the written form. -/
theorem text_numbered : (t.numbered sentence).text = t.text :=
  text_numberFrom sentence t 0

/-- The identifiers count the nodes in pre-order from 0. -/
theorem map_id_subtrees_numbered :
    (t.numbered sentence).subtrees.map (·.root.id) =
      (List.range t.size).map fun i => some (nodeId sentence i) := by
  rw [numbered, (map_id_subtrees_numberFrom sentence t 0).1, List.range_eq_range', size]

/-- Identifiers leave everything else of the leaves. -/
theorem map_frontier_numbered {β : Type} (f : Node → β) (hf : ∀ n, f { n with id := none } = f n) :
    (t.numbered sentence).frontier.map (fun u => f u.root) =
      t.frontier.map fun u => f u.root := by
  have hleaves (u : Tree) : u.frontier.map (fun v => f v.root) =
      ((u.subtrees.map unnumberedRoot).filter Prod.snd).map fun v => f v.1 := by
    rw [frontier_eq_filter, List.filter_map, List.map_map]
    exact List.map_congr_left fun v _ => (hf v.root).symm
  rw [hleaves, hleaves, numbered, map_unnumberedRoot_numberFrom]

end Numbering

end Chunker.Tree
