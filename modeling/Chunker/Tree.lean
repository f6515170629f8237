import Chunker.Text.Lines
import Chunker.Word

/-!
# Chunk trees

A chunk tree has a label at every node. The leaves are bound to the words of a sentence once the
tree is matched with it. A node may be marked as the head of its parent, and it may have an
identifier.

## Main definitions

* `Node`, `Tree` : a node, and a node with its children.
* `Tree.subtrees` : the subtrees in pre-order, by recursion.
* `Tree.preorder` : the same list from a walk that keeps the pending subtrees in front of it.
* `Tree.frontier`, `Tree.leaves`, `Tree.leafAt` : the leaves from left to right.
* `Tree.mapLeaves` : the tree with successive values merged into its leaves.
* `Tree.numbered`, `Tree.find?` : the identifiers of the nodes and the search for one.
* `Tree.headWord` : the word at the end of the path of heads.

## Main results

* `Tree.preorder_eq_subtrees` : the walk lists the subtrees in pre-order.
-/

namespace Chunker

/-- A node of a chunk tree. A leaf has its word once the tree is bound to a sentence, and a node
has its identifier once the tree is numbered. -/
structure Node where
  label : String
  word : Option Word := none
  /-- The mark of the head among the children of a node. -/
  isHead : Bool := false
  id : Option String := none
deriving DecidableEq

/-- The written form of a node: `+` for a head, the label, and the form of the word. -/
def Node.text (n : Node) : String :=
  (if n.isHead then "+" else "") ++ n.label ++
    match n.word with
    | some w => "(" ++ w.form ++ ")"
    | none => ""

/-- A node with its children, from left to right. -/
inductive Tree where
  | node (root : Node) (children : List Tree)

namespace Tree

/-! ### Parts -/

/-- The node at the root. -/
def root : Tree → Node
  | node n _ => n

/-- The trees right below the root. -/
def children : Tree → List Tree
  | node _ ts => ts

/-- The category at the root. -/
def label (t : Tree) : String :=
  t.root.label

/-- Holds of a tree of one node. -/
def isLeaf (t : Tree) : Bool :=
  t.children.isEmpty

/-- The tree with another node at the root. -/
def withRoot (t : Tree) (n : Node) : Tree :=
  node n t.children

/-- The tree with a head mark, or without one, at the root. -/
def markHead (t : Tree) (mark : Bool) : Tree :=
  t.withRoot { t.root with isHead := mark }

/-- The tree with one more child, to the right of the others. -/
def addChild (t child : Tree) : Tree :=
  node t.root (t.children ++ [child])

/-! ### Pre-order -/

mutual

/-- The subtrees in pre-order: the tree itself, then those of each child in turn. -/
def subtrees : Tree → List Tree
  | node n ts => node n ts :: subtreesOf ts

/-- The subtrees of several trees, one tree after the other. -/
def subtreesOf : List Tree → List Tree
  | [] => []
  | t :: ts => subtrees t ++ subtreesOf ts

end

/-- The number of nodes. -/
def size (t : Tree) : Nat :=
  t.subtrees.length

private theorem subtreesOf_append (ts us : List Tree) :
    subtreesOf (ts ++ us) = subtreesOf ts ++ subtreesOf us := by
  induction ts with
  | nil => simp [subtreesOf]
  | cons t ts ih => simp [subtreesOf, ih]

/-- The subtrees that a walk visits, given the trees that are still to be visited. The children
of a tree are visited before the trees that were pending. -/
def walk : List Tree → List Tree
  | [] => []
  | node n ts :: pending => node n ts :: walk (ts ++ pending)
termination_by pending => (subtreesOf pending).length
decreasing_by
  simp only [subtreesOf_append, subtreesOf, subtrees, List.length_append, List.length_cons]
  omega

/-- The subtrees in the order of a walk from the root. -/
def preorder (t : Tree) : List Tree :=
  walk [t]

private theorem walk_eq_subtreesOf (ts : List Tree) : walk ts = subtreesOf ts := by
  fun_induction walk ts with
  | case1 => simp [subtreesOf]
  | case2 n ts pending ih => simp [subtreesOf, subtrees, ih, subtreesOf_append]

/-- The walk lists the subtrees in pre-order. -/
theorem preorder_eq_subtrees (t : Tree) : t.preorder = t.subtrees := by
  simp [preorder, walk_eq_subtreesOf, subtreesOf]

/-! ### Leaves -/

/-- The leaves met by a walk. -/
def leaves (t : Tree) : List Tree :=
  t.preorder.filter isLeaf

mutual

/-- The leaves from left to right, by recursion. -/
def frontier : Tree → List Tree
  | node n ts => if ts.isEmpty then [node n ts] else frontierOf ts

/-- The leaves of several trees from left to right. -/
def frontierOf : List Tree → List Tree
  | [] => []
  | t :: ts => frontier t ++ frontierOf ts

end

/-- The leaf at a position, counted from the left. -/
def leafAt (t : Tree) (i : Nat) : Option Tree :=
  t.leaves[i]?

section MapLeaves

variable {α : Type} (f : Node → α → Node)

mutual

/-- The tree with successive values merged into its leaves, from left to right, and the values
that are left over. Leaves for which there is no value stay as they are. -/
def mapLeaves : Tree → List α → Tree × List α
  | node n ts, as =>
    if ts.isEmpty then
      match as with
      | [] => (node n ts, [])
      | a :: as => (node (f n a) ts, as)
    else
      let (ts, as) := mapLeavesOf ts as
      (node n ts, as)

/-- The trees with successive values merged into their leaves, and the values left over. -/
def mapLeavesOf : List Tree → List α → List Tree × List α
  | [], as => ([], as)
  | t :: ts, as =>
    let (t, as) := mapLeaves t as
    let (ts, as) := mapLeavesOf ts as
    (t :: ts, as)

end

end MapLeaves

/-- The tree with its leaves relabelled by successive labels. -/
def relabelLeaves (t : Tree) (labels : List String) : Tree :=
  (mapLeaves (fun n l => { n with label := l }) t labels).1

/-! ### Identifiers -/

/-- The identifier of a node: that of the sentence and the number of the node. -/
def nodeId (sentence : String) (n : Nat) : String :=
  sentence ++ "." ++ toString n

mutual

/-- The tree with identifiers that count from a number, in pre-order, and the next number. -/
def numberFrom (sentence : String) : Tree → Nat → Tree × Nat
  | node v ts, n =>
    let (ts, m) := numberFromOf sentence ts (n + 1)
    (node { v with id := some (nodeId sentence n) } ts, m)

/-- The trees with identifiers that count from a number, and the next number. -/
def numberFromOf (sentence : String) : List Tree → Nat → List Tree × Nat
  | [], n => ([], n)
  | t :: ts, n =>
    let (t, m) := numberFrom sentence t n
    let (ts, m) := numberFromOf sentence ts m
    (t :: ts, m)

end

/-- The tree with identifiers that count its nodes in pre-order from 0. -/
def numbered (t : Tree) (sentence : String) : Tree :=
  (numberFrom sentence t 0).1

/-- The first subtree in pre-order whose root has an identifier. -/
def find? (t : Tree) (id : String) : Option Tree :=
  t.preorder.find? (·.root.id == some id)

/-! ### Heads -/

mutual

/-- The word at the end of the path of heads: from every node to its first child that is marked
as head, down to a leaf. -/
def headWord : Tree → Option Word
  | node n ts => if ts.isEmpty then n.word else headWordOf ts

/-- The head word of the first tree that is marked as head. -/
def headWordOf : List Tree → Option Word
  | [] => none
  | t :: ts => if t.root.isHead then headWord t else headWordOf ts

end

/-! ### Written form -/

mutual

/-- The written form of a tree. A leaf is written as its node. Below any other node, between
brackets, stand the lines of its children, indented by two spaces. -/
def text : Tree → String
  | node n ts => if ts.isEmpty then n.text else n.text ++ "_[" ++ textOf ts ++ "\n]"

/-- The lines of several trees, each after a newline and two spaces. -/
def textOf : List Tree → String
  | [] => ""
  | t :: ts => String.join ((Text.lines (text t)).map ("\n  " ++ ·)) ++ textOf ts

end

end Tree

end Chunker
