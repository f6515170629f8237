import Chunker.Proofs.Tree
import Mathlib.Data.List.Basic

/-!
# Addresses in a tree

The place of a node in a tree is told by the way from the root: the numbers of the children that
lead to it, each counted from 0. Two nodes that look the same have different addresses. In
pre-order the addresses are in lexicographic order, an address before those that continue it. So the
list of the subtrees in pre-order has every node once.

## Main definitions

* `Tree.subtree?` : the subtree at an address.
* `Tree.addresses` : the addresses of the nodes of a tree.

## Main results

* `Tree.mem_addresses_iff` : the addresses are those where there is a subtree.
* `Tree.pairwise_addresses` : the addresses are in lexicographic order.
* `Tree.map_subtree?_addresses` : the subtrees at the addresses are the subtrees in pre-order.
-/

namespace Chunker.Tree

/-! ### Subtrees at addresses -/

/-- The subtree at an address, if the way does not leave the tree. -/
def subtree? (t : Tree) : List Nat → Option Tree
  | [] => some t
  | i :: p => t.children[i]?.bind (subtree? · p)

@[simp]
theorem subtree?_nil (t : Tree) : t.subtree? [] = some t :=
  rfl

@[simp]
theorem subtree?_cons (n : Node) (ts : List Tree) (i : Nat) (p : List Nat) :
    (node n ts).subtree? (i :: p) = ts[i]?.bind (·.subtree? p) :=
  rfl

mutual

/-- The addresses of the nodes: the root, then those in each child in turn. -/
def addresses : Tree → List (List Nat)
  | node _ ts => [] :: addressesFrom 0 ts

/-- The addresses in several children, the first of which has a given number. -/
def addressesFrom (i : Nat) : List Tree → List (List Nat)
  | [] => []
  | t :: ts => (addresses t).map (i :: ·) ++ addressesFrom (i + 1) ts

end

theorem mem_addressesFrom_iff {ts : List Tree} {i : Nat} {q : List Nat} :
    q ∈ addressesFrom i ts ↔ ∃ j p t, q = (i + j) :: p ∧ ts[j]? = some t ∧ p ∈ t.addresses := by
  induction ts generalizing i with
  | nil => simp [addressesFrom]
  | cons t ts ih =>
    rw [addressesFrom, List.mem_append, List.mem_map, ih]
    constructor
    · rintro (⟨p, hp, rfl⟩ | ⟨j, p, u, rfl, hu, hp⟩)
      · exact ⟨0, p, t, rfl, rfl, hp⟩
      · exact ⟨j + 1, p, u, by rw [Nat.add_right_comm, Nat.add_assoc], hu, hp⟩
    · rintro ⟨_ | j, p, u, rfl, hu, hp⟩
      · obtain rfl := Option.some.inj hu
        exact .inl ⟨p, hp, rfl⟩
      · exact .inr ⟨j, p, u, by rw [Nat.add_right_comm, Nat.add_assoc], hu, hp⟩

mutual

/-- The addresses are in lexicographic order, so none is met twice. -/
theorem pairwise_addresses (t : Tree) : t.addresses.Pairwise (· < ·) := by
  match t with
  | node n ts =>
    rw [addresses, List.pairwise_cons]
    refine ⟨fun q hq => ?_, pairwise_addressesFrom 0 ts⟩
    obtain ⟨j, p, -, rfl, -⟩ := mem_addressesFrom_iff.1 hq
    exact List.nil_lt_cons _ _

theorem pairwise_addressesFrom (i : Nat) (ts : List Tree) :
    (addressesFrom i ts).Pairwise (· < ·) := by
  match ts with
  | [] =>
    rw [addressesFrom]
    exact .nil
  | t :: ts =>
    rw [addressesFrom, List.pairwise_append, List.pairwise_map]
    refine ⟨(pairwise_addresses t).imp fun h => List.cons_lt_cons_iff.2 (.inr ⟨rfl, h⟩),
      pairwise_addressesFrom (i + 1) ts, fun q hq q' hq' => ?_⟩
    -- The numbers of the further children are greater.
    obtain ⟨p, -, rfl⟩ := List.mem_map.1 hq
    obtain ⟨j, p', -, rfl, -⟩ := mem_addressesFrom_iff.1 hq'
    exact List.cons_lt_cons_iff.2 (.inl (by omega))

end

mutual

/-- The subtrees at the addresses are the subtrees in pre-order. -/
theorem map_subtree?_addresses (t : Tree) : t.addresses.map t.subtree? = t.subtrees.map some := by
  match t with
  | node n ts =>
    rw [addresses, subtrees, List.map_cons, List.map_cons, subtree?_nil]
    exact congrArg _ (map_subtree?_addressesFrom n [] ts)

theorem map_subtree?_addressesFrom (n : Node) (us ts : List Tree) :
    (addressesFrom us.length ts).map (node n (us ++ ts)).subtree? =
      (subtreesOf ts).map some := by
  match ts with
  | [] => rw [addressesFrom, subtreesOf, List.map_nil, List.map_nil]
  | t :: ts =>
    have hfirst : ((node n (us ++ t :: ts)).subtree? ∘ (us.length :: ·)) = t.subtree? := by
      funext p
      simp
    have hrest := map_subtree?_addressesFrom n (us ++ [t]) ts
    rw [List.length_append, List.length_singleton, List.append_assoc, List.singleton_append]
      at hrest
    rw [addressesFrom, subtreesOf, List.map_append, List.map_append, List.map_map, hfirst,
      map_subtree?_addresses t, hrest]

end

end Chunker.Tree
