import Chunker.Chart.Derivation
import Chunker.Proofs.Grammar.WellFormed
import Chunker.Proofs.Tree

/-!
# Trees of derivations

A derivation is proper if it has no fault, its leaves are terminals, and everything else in it is
made from something. Such a derivation always yields a tree. What is left out of a tree
is never a terminal, so it has children that take its place, and the leaves of the tree are the
leaves of the derivation.

## Main definitions

* `Derivation.label` : the category that a derivation is made for.
* `Derivation.firstFault?`, `Derivation.checked` : the first fault that is met along a derivation,
  and a derivation or else its first fault.
* `Derivation.Proper` : a derivation without faults that ends in terminals.

## Main results

* `Derivation.label_of_outcome` : the root of the tree.
* `Derivation.Proper.outcome_eq` : a proper derivation yields its tree.
* `Derivation.Proper.map_label_frontier_step` : the leaves of the tree are those of the parts.
-/

namespace Chunker

namespace Derivation

/-- The category that a derivation is made for; empty for a fault. -/
def label : Derivation → Category
  | leaf label => label
  | step label _ _ _ => label
  | fault _ => ""

/-- Holds of a derivation without faults that ends in terminals and makes every other category from
one part at least. -/
inductive Proper (g : RuleSet) : Derivation → Prop
  | leaf {label : Category} (h : label ∉ g.nonterminals) : Proper g (.leaf label)
  | step {label : Category} {cell : Coord} {governor : Option Nat} {parts : List Derivation}
      (hne : parts ≠ []) (h : ∀ d ∈ parts, Proper g d) : Proper g (.step label cell governor parts)

variable {g : RuleSet} {d : Derivation}

/-! ### Faults -/

theorem label_tree (g : RuleSet) (d : Derivation) : (d.tree g).label = d.label := by
  cases d <;> simp [tree, label, Tree.label, Tree.root]

/-- The first fault that is met along a derivation, if there is one. -/
def firstFault? (g : RuleSet) (d : Derivation) : Option TreeError :=
  (d.notices g).findSome? Notice.fault?

/-- A derivation without faults, or else its first fault. -/
def checked (g : RuleSet) (d : Derivation) : Except TreeError Derivation :=
  match d.firstFault? g with
  | some err => .error err
  | none => .ok d

theorem outcome_fst (g : RuleSet) (d : Derivation) :
    (d.outcome g).1 = (d.checked g).map (tree g) := by
  rw [outcome, checked, firstFault?]
  cases (d.notices g).findSome? Notice.fault? <;> rfl

theorem outcome_eq_ok_iff {t : Tree} :
    (d.outcome g).1 = .ok t ↔ d.firstFault? g = none ∧ d.tree g = t := by
  rw [outcome_fst, checked]
  cases d.firstFault? g <;> simp [Except.map]

@[simp] theorem firstFault?_leaf (x : Category) : (leaf x).firstFault? g = none := by
  simp [firstFault?, notices]

@[simp] theorem firstFault?_fault (err : TreeError) : (fault err).firstFault? g = some err := by
  simp [firstFault?, notices, Notice.fault?]

/-- The faults of a category are those of its parts, from left to right. -/
@[simp] theorem firstFault?_step (x : Category) (c : Coord) (governor : Option Nat)
    (parts : List Derivation) :
    (step x c governor parts).firstFault? g = parts.findSome? (firstFault? g) := by
  have hparts : (noticesOf g parts).findSome? Notice.fault? = parts.findSome? (firstFault? g) := by
    induction parts with
    | nil => rw [noticesOf]; rfl
    | cons d ds ih =>
      rw [noticesOf, List.findSome?_append, ih, List.findSome?_cons, ← firstFault?]
      cases d.firstFault? g <;> rfl
  rw [firstFault?, notices, List.findSome?_append, hparts]
  split <;> simp [Notice.fault?]

/-- The root of the tree that a derivation yields. -/
theorem label_of_outcome {t : Tree} (h : (d.outcome g).1 = .ok t) : t.label = d.label := by
  rw [← (outcome_eq_ok_iff.1 h).2, label_tree]

theorem ne_fault_of_outcome {t : Tree} (h : (d.outcome g).1 = .ok t) (e : TreeError) :
    d ≠ .fault e := by
  rintro rfl
  simpa using (outcome_eq_ok_iff.1 h).1

namespace Proper

theorem firstFault?_eq_none (h : d.Proper g) : d.firstFault? g = none := by
  induction h with
  | leaf => exact firstFault?_leaf _
  | step _ _ ih =>
    rw [firstFault?_step]
    exact List.findSome?_eq_none_iff.2 ih

/-- A proper derivation yields its tree. -/
theorem outcome_eq (h : d.Proper g) : (d.outcome g).1 = .ok (d.tree g) :=
  outcome_eq_ok_iff.2 ⟨h.firstFault?_eq_none, rfl⟩

end Proper

end Derivation

/-! ### Induction -/

/-- A property of all derivations is shown for a category from its parts. -/
theorem Derivation.induction {P : Derivation → Prop} (leaf : ∀ x, P (.leaf x))
    (step : ∀ x c governor parts, (∀ d ∈ parts, P d) → P (.step x c governor parts))
    (fault : ∀ err, P (.fault err)) (d : Derivation) : P d :=
  @Derivation.rec P (fun ds => ∀ d ∈ ds, P d) leaf step fault
    (fun _ hd => absurd hd List.not_mem_nil)
    (fun _ _ hd hds => List.forall_mem_cons.2 ⟨hd, hds⟩) d

/-! ### Placement below a parent -/

section Place

variable {g : RuleSet} {parent : Category} {governs : Bool} {t : Tree}

/-- What is left out of a tree is no terminal. -/
theorem RuleSet.WellFormed.mem_of_leavesOut (hg : g.WellFormed) {child : Category}
    (h : g.leavesOut parent child) : child ∈ g.nonterminals := by
  simp only [RuleSet.leavesOut, RuleSet.isHidden, RuleSet.isOnlyTop, RuleSet.isFlat,
    Bool.or_eq_true, Bool.and_eq_true, decide_eq_true_eq] at h
  rcases h with (h | h) | ⟨h, -⟩
  · exact hg.hidden h
  · exact hg.onlyTop h
  · exact hg.flat h

/-- Something stands for a child below its parent, unless the child is a leaf for a category that
rules make. -/
theorem RuleSet.WellFormed.place_ne_nil (hg : g.WellFormed)
    (h : t.children = [] → t.label ∉ g.nonterminals) : g.place parent governs t ≠ [] := by
  rw [RuleSet.place]
  split
  · rename_i hout
    have hne : t.children ≠ [] := fun hnil => h hnil (hg.mem_of_leavesOut hout)
    split
    · exact hne
    · simpa using hne
  · exact List.cons_ne_nil _ _

/-- What stands for a child below its parent has the leaves of the child. -/
theorem RuleSet.WellFormed.map_label_frontierOf_place (hg : g.WellFormed)
    (h : t.children = [] → t.label ∉ g.nonterminals) :
    (Tree.frontierOf (g.place parent governs t)).map Tree.label = t.frontier.map Tree.label := by
  rw [RuleSet.place]
  split
  · rename_i hout
    obtain ⟨n, ts⟩ := t
    have hne : ts ≠ [] := fun hnil => h hnil (hg.mem_of_leavesOut hout)
    rw [Tree.frontier_node hne]
    split
    · rfl
    · exact Tree.map_label_frontierOf_markHead ts false
  · rw [Tree.frontierOf_singleton, Tree.map_label_frontier_markHead]

section All

variable {P : Tree → Prop} (hmark : ∀ u mark, P u → P (u.markHead mark))
include hmark

/-- What stands for a child below its parent has a property that all subtrees of the child's
children have, and the child as well if it stands for itself. -/
theorem RuleSet.all_place (h : Tree.All P t.children)
    (ht : g.leavesOut parent t.label = false → P t) : Tree.All P (g.place parent governs t) := by
  rw [place]
  split
  · split
    · exact h
    · exact h.map_markHead hmark false
  · rename_i hout
    exact Tree.all_singleton_iff.2 ⟨hmark t governs (ht (Bool.eq_false_iff.2 hout)), h⟩

theorem Derivation.all_childrenFrom {ds : List Derivation}
    (h : ∀ d ∈ ds, Tree.All P (d.tree g).children)
    (hd : ∀ d ∈ ds, g.leavesOut parent d.label = false → P (d.tree g)) (governor : Option Nat)
    (i : Nat) : Tree.All P (childrenFrom g parent governor i ds) := by
  induction ds generalizing i with
  | nil => rw [childrenFrom]; exact Tree.all_nil
  | cons d ds ih =>
    rw [List.forall_mem_cons] at h hd
    rw [childrenFrom]
    refine Tree.all_append_iff.2 ⟨RuleSet.all_place hmark h.1 fun hout => hd.1 ?_,
      ih h.2 hd.2 (i + 1)⟩
    rwa [label_tree] at hout

end All

end Place

namespace Derivation.Proper

variable {g : RuleSet} {d : Derivation}

/-- Only terminals are leaves in the tree of a proper derivation. -/
theorem not_mem_of_children_eq_nil (hg : g.WellFormed) (h : d.Proper g) :
    (d.tree g).children = [] → (d.tree g).label ∉ g.nonterminals := by
  induction h with
  | leaf hlabel =>
    intro _
    rw [label_tree]
    exact hlabel
  | @step label cell governor parts hne hparts ih =>
    intro hnil
    cases parts with
    | nil => exact absurd rfl hne
    | cons d ds =>
      rw [tree, Tree.children, childrenFrom, List.append_eq_nil_iff] at hnil
      exact absurd hnil.1 (hg.place_ne_nil (ih d List.mem_cons_self))

theorem map_label_frontierOf_childrenFrom (hg : g.WellFormed) {ds : List Derivation}
    (h : ∀ d ∈ ds, d.Proper g) (parent : Category) (governor : Option Nat) (i : Nat) :
    (Tree.frontierOf (childrenFrom g parent governor i ds)).map Tree.label =
      ds.flatMap fun d => (d.tree g).frontier.map Tree.label := by
  induction ds generalizing i with
  | nil => rw [childrenFrom, Tree.frontierOf, List.map_nil, List.flatMap_nil]
  | cons d ds ih =>
    rw [childrenFrom, Tree.frontierOf_append, List.map_append, List.flatMap_cons,
      ih (fun d' hd' => h d' (List.mem_cons_of_mem d hd')),
      hg.map_label_frontierOf_place ((h d List.mem_cons_self).not_mem_of_children_eq_nil hg)]

/-- The leaves of the tree of a category are those of the trees of its parts. -/
theorem map_label_frontier_step (hg : g.WellFormed) {x : Category} {c : Coord}
    {governor : Option Nat} {parts : List Derivation}
    (h : (Derivation.step x c governor parts).Proper g) :
    ((Derivation.step x c governor parts).tree g).frontier.map Tree.label =
      parts.flatMap fun d => (d.tree g).frontier.map Tree.label := by
  obtain ⟨hne, hparts⟩ : parts ≠ [] ∧ ∀ d ∈ parts, d.Proper g := by
    cases h with
    | step hne hparts => exact ⟨hne, hparts⟩
  have hchildren : childrenFrom g x governor 0 parts ≠ [] := by
    cases parts with
    | nil => exact absurd rfl hne
    | cons d ds =>
      rw [childrenFrom]
      have hd := (hparts d List.mem_cons_self).not_mem_of_children_eq_nil hg
      exact List.append_ne_nil_of_left_ne_nil (hg.place_ne_nil hd) _
  rw [tree, Tree.frontier_node hchildren, map_label_frontierOf_childrenFrom hg hparts]

end Derivation.Proper

/-! ### Steps of a search -/

namespace Chart

variable {g : RuleSet} {chart : Chart} {c : Coord} {x : Category} {e : Edge} {n : Nat}

theorem deriveWithin_of_leaf (hstart : x ≠ g.start) (hx : x ∉ g.nonterminals) :
    chart.deriveWithin g (n + 1) c x = .leaf x := by
  rw [deriveWithin, if_pos (by simp [hstart, hx, RuleSet.isTerminal])]

theorem deriveWithin_of_eq_none (hx : x = g.start ∨ x ∈ g.nonterminals)
    (he : chart.bestFor? g c x = none) :
    chart.deriveWithin g (n + 1) c x = .fault (.noCompleteEdge x c) := by
  rw [deriveWithin, if_neg (by simpa [RuleSet.isTerminal, ← not_or] using hx), he]

theorem deriveWithin_of_eq_some (hx : x = g.start ∨ x ∈ g.nonterminals)
    (he : chart.bestFor? g c x = some e) :
    chart.deriveWithin g (n + 1) c x = .step x c e.rule.governor
      ((e.matched.zip e.backpath).map fun p => chart.deriveWithin g n p.2 p.1) := by
  rw [deriveWithin, if_neg (by simpa [RuleSet.isTerminal, ← not_or] using hx), he]

end Chart

/-! ### Roots -/

/-- The root of a tree that is read off a cell is the visible category of the cell. -/
theorem Chart.label_of_extract {g : RuleSet} {chart : Chart} {c : Coord} {t : Tree}
    (h : (chart.extract g c).1 = .ok t) : chart.visibleHead? g c = some t.label := by
  rw [extract] at h
  split at h
  · cases h
  · rename_i x hx
    rw [hx, Derivation.label_of_outcome h]
    have hne := Derivation.ne_fault_of_outcome h
    rw [derive, deriveWithin] at hne ⊢
    split
    · rfl
    · split
      · rename_i hterminal _ hbest
        rw [if_neg hterminal, hbest] at hne
        exact absurd rfl (hne _)
      · rfl

end Chunker
