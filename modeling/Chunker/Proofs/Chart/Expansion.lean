import Chunker.Chart
import Chunker.Proofs.Chart.Closure
import Chunker.Proofs.Grammar.Contents

/-!
# The expansion of labels

The rules that a complete edge starts are found step by step. First come the rules that match the
category of the edge through a wildcard. Then a queue of labels is worked off, with a set of the
labels that have been expanded: a label that is in the set is dropped, and any other joins the
set, the edges of its rules join the cell, and the categories of those that are complete join the
queue.

Every step drops a label or takes at least as many rules from those that are still to be started
as it puts labels on the queue. So the work ends, also where labels lead back to each other. At
the end the set holds the labels that a chain of rules of one pattern leads to, each of them once,
and the cell holds what it held before, followed by the edges that the category starts.

## Main definitions

* `RuleSet.Expansion` : a point at which the work may be.
* `RuleSet.Expansion.Step`, `RuleSet.Expansion.first` : one step of it, and its beginning.
* `RuleSet.Expansion.Inv` : what holds at every point.
* `RuleSet.Chained` : the labels that chains of rules lead to.
* `RuleSet.expandedBy` : the rules that the expansion starts.

## Main results

* `RuleSet.Expansion.wellFounded_step` : the work ends.
* `RuleSet.Expansion.Inv.step`, `RuleSet.Expansion.Inv.run` : the invariant is kept.
* `RuleSet.reaches_iff_chained` : the labels that are reached from the queue of a category.
* `RuleSet.startEdges_expansion` : what the expansion leaves in a cell.
-/

namespace Chunker

/-! ### Indices without several keys -/

namespace Index

variable {κ α : Type} [DecidableEq κ]

/-- The index without the values of several keys. -/
def withoutAll (ix : Index κ α) (ks : List κ) : Index κ α :=
  ⟨ix.buckets.filter fun b => b.1 ∉ ks⟩

private theorem leaveOut_eq_filter (k : κ) (bs : List (κ × List α)) :
    leaveOut k bs = bs.filter fun b => b.1 ≠ k := by
  induction bs with
  | nil => rfl
  | cons b bs ih => grind [leaveOut]

theorem withoutAll_nil (ix : Index κ α) : ix.withoutAll [] = ix := by
  simp [withoutAll]

theorem without_withoutAll (ix : Index κ α) (k : κ) (ks : List κ) :
    (ix.withoutAll ks).without k = ix.withoutAll (k :: ks) := by
  rw [without, leaveOut_eq_filter, withoutAll, withoutAll, List.filter_filter]
  simp only [List.mem_cons, not_or, ne_eq, Bool.decide_and]

theorem withoutAll_cons_of_mem (ix : Index κ α) {k : κ} {ks : List κ} (h : k ∈ ks) :
    ix.withoutAll (k :: ks) = ix.withoutAll ks := by
  have hmem (k' : κ) : k' ∈ k :: ks ↔ k' ∈ ks :=
    List.mem_cons.trans (or_iff_right_of_imp fun heq => heq ▸ h)
  simp only [withoutAll, hmem]

theorem get_withoutAll_of_not_mem (ix : Index κ α) {k : κ} {ks : List κ} (h : k ∉ ks) :
    (ix.withoutAll ks).get k = ix.get k := by
  obtain ⟨bs⟩ := ix
  simp only [get, withoutAll]
  induction bs with
  | nil => rfl
  | cons b bs ih => grind [valuesIn]

end Index

theorem Rule.right_eq_singleton_iff {r : Rule} {q : Category} :
    r.right = [q] ↔ r.isUnary ∧ r.right.head? = some q := by
  obtain ⟨head, right, governor⟩ := r
  cases right with
  | nil => simp [Rule.isUnary]
  | cons p ps => simp [Rule.isUnary, and_comm]

namespace RuleSet

open Relation

/-! ### Points of the expansion -/

/-- The edges of rules, each with its first pattern matched by a cell. -/
def opened (rs : List Rule) (c : Coord) : Cell :=
  rs.filterMap fun r => (Edge.mk r []).shift c

/-- A point at which the expansion of labels may be: the labels that have been expanded, those that
wait, and the edges of the cell. -/
structure Expansion where
  /-- The labels that have been expanded, the last one first. -/
  visited : List Category
  queue : List Category
  cell : Cell

namespace Expansion

/-- The point after the first label of the queue is taken off, and expanded if it was not before.
There is none if no label waits. -/
def next? (g : RuleSet) (c : Coord) (s : Expansion) : Option Expansion :=
  match s.queue with
  | [] => none
  | label :: queue =>
    if label ∈ s.visited then some { s with queue := queue }
    else
      let es := opened (g.rulesStarting label) c
      some ⟨label :: s.visited, queue ++ (Cell.complete es).map Edge.head, s.cell ++ es⟩

/-- One step of the expansion in a cell. -/
def Step (g : RuleSet) (c : Coord) (s s' : Expansion) : Prop :=
  s.next? g c = some s'

/-- The beginning of the expansion: the rules that match a category through a wildcard are started,
and the complete ones among them come before the category on the queue. -/
def first (g : RuleSet) (label : Category) (c : Coord) (found : Cell) : Expansion :=
  let es := opened (g.wildStartedBy label) c
  ⟨[], (Cell.complete es).map Edge.head ++ [label], found ++ es⟩

end Expansion

variable {g : RuleSet} {c : Coord} {queue : List Category} {found : Cell}

/-- Of rules that are started, those of one pattern are complete. -/
theorem map_head_complete_opened (rs : List Rule) (c : Coord) :
    (Cell.complete (opened rs c)).map Edge.head = unaryHeads rs := by
  induction rs with
  | nil => rfl
  | cons r rs ih =>
    obtain ⟨head, right, governor⟩ := r
    simp only [opened, Cell.complete, unaryHeads] at ih ⊢
    rcases right with _ | ⟨q, _ | ⟨q', qs⟩⟩
    · simpa [Edge.shift, Edge.isActive, Rule.isUnary] using ih
    · simpa [Edge.shift, Edge.isActive, Edge.isComplete, Edge.head, Rule.isUnary] using ih
    · simpa [Edge.shift, Edge.isActive, Edge.isComplete, Rule.isUnary] using ih

theorem opened_append (rs rs' : List Rule) (c : Coord) :
    opened (rs ++ rs') c = opened rs c ++ opened rs' c :=
  List.filterMap_append

namespace Expansion

variable {s s' : Expansion}

/-- What a step can do: it drops a label that was expanded before, or it expands one that was
not. -/
theorem Step.cases (h : Step g c s s') : ∃ label queue, s.queue = label :: queue ∧
    ((label ∈ s.visited ∧ s' = { s with queue := queue }) ∨
      (label ∉ s.visited ∧ s' = ⟨label :: s.visited,
        queue ++ unaryHeads (g.rulesStarting label),
        s.cell ++ opened (g.rulesStarting label) c⟩)) := by
  obtain ⟨visited, queue, cell⟩ := s
  cases queue with
  | nil => cases h
  | cons label queue =>
    refine ⟨label, queue, rfl, ?_⟩
    simp only [Step, next?, map_head_complete_opened] at h
    split at h
    · rename_i hmem
      exact .inl ⟨hmem, (Option.some.inj h).symm⟩
    · rename_i hmem
      exact .inr ⟨hmem, (Option.some.inj h).symm⟩

theorem exists_step (h : s.queue ≠ []) : ∃ s', Step g c s s' := by
  obtain ⟨visited, queue, cell⟩ := s
  cases queue with
  | nil => exact absurd rfl h
  | cons label queue =>
    simp only [Step, next?]
    split
    · exact ⟨_, rfl⟩
    · exact ⟨_, rfl⟩

/-! ### The end of the expansion -/

/-- The number of rules that are still to be started and of labels that wait. -/
def work (g : RuleSet) (s : Expansion) : Nat :=
  (g.byFirst.withoutAll s.visited).size + s.queue.length

theorem Step.work_lt (h : Step g c s s') : s'.work g < s.work g := by
  obtain ⟨label, queue, hqueue, ⟨-, rfl⟩ | ⟨hnew, rfl⟩⟩ := h.cases
  · rw [work, work, hqueue, List.length_cons]
    exact Nat.lt_succ_self _
  · have hrules : (g.byFirst.withoutAll s.visited).get label = g.rulesStarting label :=
      Index.get_withoutAll_of_not_mem _ hnew
    have hsize := (g.byFirst.withoutAll s.visited).size_without_add_le label
    have hheads := length_unaryHeads_le (g.rulesStarting label)
    rw [hrules, Index.without_withoutAll] at hsize
    simp only [work, hqueue, List.length_append, List.length_cons]
    omega

/-- The expansion ends, from whatever point it begins. -/
theorem wellFounded_step (g : RuleSet) (c : Coord) :
    WellFounded fun s' s : Expansion => Step g c s s' :=
  Subrelation.wf (fun h => Step.work_lt h) (measure (work g)).wf

theorem exists_run (g : RuleSet) (c : Coord) (s : Expansion) :
    ∃ last, ReflTransGen (Step g c) s last ∧ last.queue = [] := by
  induction s using (wellFounded_step g c).induction with
  | _ s ih =>
    by_cases hqueue : s.queue = []
    · exact ⟨s, .refl, hqueue⟩
    · obtain ⟨s', hstep⟩ := exists_step (g := g) (c := c) hqueue
      obtain ⟨last, hrun, hlast⟩ := ih s' hstep
      exact ⟨last, .head hstep hrun, hlast⟩

/-! ### The invariant -/

/-- What holds at every point of the expansion of a queue of labels in a cell. No label is expanded
twice, and none is lost. The edges put behind those of the cell are those of the rules that the
expanded labels start, and together with what the waiting ones still start, these are the rules that
the closure of the queue starts. -/
structure Inv (g : RuleSet) (c : Coord) (queue : List Category) (found : Cell) (s : Expansion) :
    Prop where
  nodup : s.visited.Nodup
  reaches : ∀ label, label ∈ s.visited ∨ label ∈ s.queue → Reaches g.byFirst queue label
  queued : ∀ label ∈ queue, label ∈ s.visited ∨ label ∈ s.queue
  closed : ∀ label ∈ s.visited, ∀ r ∈ g.rulesStarting label, r.isUnary →
    r.head ∈ s.visited ∨ r.head ∈ s.queue
  started : s.visited.reverse.flatMap g.rulesStarting ++
    startFrom (g.byFirst.withoutAll s.visited) s.queue = startFrom g.byFirst queue
  cell : s.cell = found ++ opened (s.visited.reverse.flatMap g.rulesStarting) c

theorem inv_of_visited_eq_nil (queue : List Category) (found : Cell) :
    Inv g c queue found ⟨[], queue, found⟩ where
  nodup := List.nodup_nil
  reaches label h := .queued (h.resolve_left List.not_mem_nil)
  queued label h := .inr h
  closed label h := absurd h List.not_mem_nil
  started := by rw [Index.withoutAll_nil]; rfl
  cell := (List.append_nil found).symm

private theorem startFrom_withoutAll_of_mem {ix : Index Category Rule} {label : Category}
    {visited : List Category} (h : label ∈ visited) (queue : List Category) :
    startFrom (ix.withoutAll visited) (label :: queue) =
      startFrom (ix.withoutAll visited) queue := by
  have hsame : (ix.withoutAll visited).without label = ix.withoutAll visited := by
    rw [Index.without_withoutAll, Index.withoutAll_cons_of_mem ix h]
  have hnone : (ix.withoutAll visited).get label = [] := by
    rw [← hsame, Index.get_without_self]
  rw [startFrom, hnone, hsame]
  simp [unaryHeads]

/-- A label that was not expanded before starts its rules, and the labels that they make wait. -/
private theorem startFrom_withoutAll_of_not_mem {ix : Index Category Rule} {label : Category}
    {visited : List Category} (h : label ∉ visited) (queue : List Category) :
    startFrom (ix.withoutAll visited) (label :: queue) =
      ix.get label ++
        startFrom (ix.withoutAll (label :: visited)) (queue ++ unaryHeads (ix.get label)) := by
  rw [startFrom, Index.get_withoutAll_of_not_mem ix h, Index.without_withoutAll]

section Invariant

variable {label : Category} {rest : List Category}

theorem Inv.drop (hs : Inv g c queue found s) (hqueue : s.queue = label :: rest)
    (hold : label ∈ s.visited) : Inv g c queue found { s with queue := rest } := by
  -- The label stays among those that are expanded.
  have hcovered {l : Category} (hl : l ∈ s.visited ∨ l ∈ s.queue) : l ∈ s.visited ∨ l ∈ rest := by
    rw [hqueue, List.mem_cons] at hl
    rcases hl with hl | rfl | hl
    · exact .inl hl
    · exact .inl hold
    · exact .inr hl
  have hsubset {l : Category} (hl : l ∈ rest) : l ∈ s.queue :=
    hqueue ▸ List.mem_cons_of_mem label hl
  have hstarted := hs.started
  rw [hqueue, startFrom_withoutAll_of_mem hold] at hstarted
  exact
    { nodup := hs.nodup
      reaches := fun l hl => hs.reaches l (hl.imp_right hsubset)
      queued := fun l hl => hcovered (hs.queued l hl)
      closed := fun l hl r hr hu => hcovered (hs.closed l hl r hr hu)
      started := hstarted
      cell := hs.cell }

theorem Inv.expand (hs : Inv g c queue found s) (hqueue : s.queue = label :: rest)
    (hnew : label ∉ s.visited) :
    Inv g c queue found ⟨label :: s.visited, rest ++ unaryHeads (g.rulesStarting label),
      s.cell ++ opened (g.rulesStarting label) c⟩ := by
  have hreached : Reaches g.byFirst queue label :=
    hs.reaches label (.inr (hqueue ▸ List.mem_cons_self))
  have hcovered {l : Category} (hl : l ∈ s.visited ∨ l ∈ s.queue) :
      l ∈ label :: s.visited ∨ l ∈ rest ++ unaryHeads (g.rulesStarting label) := by
    rw [hqueue, List.mem_cons] at hl
    rw [List.mem_cons, List.mem_append]
    rcases hl with hl | rfl | hl
    · exact .inl (.inr hl)
    · exact .inl (.inl rfl)
    · exact .inr (.inl hl)
  have hstarted := hs.started
  rw [hqueue, startFrom_withoutAll_of_not_mem hnew, ← List.append_assoc] at hstarted
  have hrules : (label :: s.visited).reverse.flatMap g.rulesStarting =
      s.visited.reverse.flatMap g.rulesStarting ++ g.rulesStarting label := by
    rw [List.reverse_cons, List.flatMap_append, List.flatMap_singleton]
  refine
    { nodup := List.nodup_cons.2 ⟨hnew, hs.nodup⟩
      reaches := fun l hl => ?_
      queued := fun l hl => hcovered (hs.queued l hl)
      closed := fun l hl r hr hu => ?_
      started := hrules ▸ hstarted
      cell := ?_ }
  · rw [List.mem_cons, List.mem_append] at hl
    rcases hl with (rfl | hl) | hl | hl
    · exact hreached
    · exact hs.reaches l (.inl hl)
    · exact hs.reaches l (.inr (hqueue ▸ List.mem_cons_of_mem label hl))
    · obtain ⟨r, hr, hu, rfl⟩ := mem_unaryHeads.1 hl
      exact .made hreached hr hu
  · rcases List.mem_cons.1 hl with rfl | hl
    · exact .inr (List.mem_append_right _ (mem_unaryHeads.2 ⟨r, hr, hu, rfl⟩))
    · exact hcovered (hs.closed l hl r hr hu)
  · rw [hrules, opened_append, ← List.append_assoc, ← hs.cell]

end Invariant

/-- A step keeps the invariant. -/
theorem Inv.step (hs : Inv g c queue found s) (h : Step g c s s') : Inv g c queue found s' := by
  obtain ⟨label, rest, hqueue, ⟨hold, rfl⟩ | ⟨hnew, rfl⟩⟩ := h.cases
  · exact hs.drop hqueue hold
  · exact hs.expand hqueue hnew

/-- All steps keep the invariant. -/
theorem Inv.run (hs : Inv g c queue found s) (h : ReflTransGen (Step g c) s s') :
    Inv g c queue found s' := by
  induction h with
  | refl => exact hs
  | tail _ hstep ih => exact ih.step hstep

/-- Where no label waits, the labels that are reached from the queue have been expanded. -/
theorem Inv.mem_visited_iff (hs : Inv g c queue found s) (hqueue : s.queue = [])
    {label : Category} : label ∈ s.visited ↔ Reaches g.byFirst queue label := by
  have hvisited {l : Category} (hl : l ∈ s.visited ∨ l ∈ s.queue) : l ∈ s.visited :=
    hl.resolve_right (by rw [hqueue]; exact List.not_mem_nil)
  refine ⟨fun h => hs.reaches label (.inl h), fun h => ?_⟩
  induction h with
  | queued h => exact hvisited (hs.queued _ h)
  | made _ hr hu ih => exact hvisited (hs.closed _ ih _ hr hu)

/-- Where no label waits, the rules of the expanded labels are those that the queue starts. -/
theorem Inv.flatMap_visited (hs : Inv g c queue found s) (hqueue : s.queue = []) :
    s.visited.reverse.flatMap g.rulesStarting = startFrom g.byFirst queue := by
  rw [← hs.started, hqueue, startFrom, List.append_nil]

end Expansion

/-! ### Chains of rules -/

/-- Holds of the labels that a category leads to by rules of one pattern, each of which has the
category of the one before as its pattern. The pattern of the first rule may also accept the
category through a wildcard, if no rule makes the category. -/
inductive Chained (g : RuleSet) (label : Category) : Category → Prop where
  | self : Chained g label label
  | wild {r : Rule} {q : Category} (hr : r ∈ g.rules) (hright : r.right = [q])
      (hterminal : g.isTerminal label) (hwild : Category.isWild q) (haccepts : g.accepts q label) :
      Chained g label r.head
  | link {l : Category} {r : Rule} (h : Chained g label l) (hr : r ∈ g.rules)
      (hright : r.right = [l]) : Chained g label r.head

/-- The labels that are reached from the queue with which the expansion begins. -/
theorem reaches_iff_chained (h : g.WellFormed) {label l : Category} :
    Reaches g.byFirst (unaryHeads (g.wildStartedBy label) ++ [label]) l ↔ g.Chained label l := by
  constructor
  · intro hl
    induction hl with
    | queued hqueue =>
      rcases List.mem_append.1 hqueue with hwild | hself
      · obtain ⟨r, hr, hu, rfl⟩ := mem_unaryHeads.1 hwild
        obtain ⟨hr, q, hq, hterminal, hwild, haccepts⟩ := h.mem_wildStartedBy.1 hr
        exact .wild hr (Rule.right_eq_singleton_iff.2 ⟨hu, hq⟩) hterminal hwild haccepts
      · obtain rfl := List.mem_singleton.1 hself
        exact .self
    | made _ hr hu ih =>
      obtain ⟨hr, hq⟩ := h.mem_byFirst.1 hr
      exact .link ih hr (Rule.right_eq_singleton_iff.2 ⟨hu, hq⟩)
  · intro hl
    induction hl with
    | self => exact .queued (List.mem_append_right _ List.mem_cons_self)
    | wild hr hright hterminal hwild haccepts =>
      obtain ⟨hu, hq⟩ := Rule.right_eq_singleton_iff.1 hright
      have hstarted := h.mem_wildStartedBy.2 ⟨hr, _, hq, hterminal, hwild, haccepts⟩
      exact .queued (List.mem_append_left _ (mem_unaryHeads.2 ⟨_, hstarted, hu, rfl⟩))
    | link _ hr hright ih =>
      obtain ⟨hu, hq⟩ := Rule.right_eq_singleton_iff.1 hright
      exact .made ih (h.mem_byFirst.2 ⟨hr, hq⟩) hu

/-! ### What the expansion starts -/

/-- The rules that the expansion of labels starts for a category. Those that match the category
through a wildcard come before them. -/
def expandedBy (g : RuleSet) (label : Category) : List Rule :=
  startFrom g.byFirst (unaryHeads (g.wildStartedBy label) ++ [label])

theorem startedBy_eq (g : RuleSet) (label : Category) :
    g.startedBy label = g.wildStartedBy label ++ g.expandedBy label :=
  rfl

/-- A rule is started by the expansion if a chain leads to its first pattern. -/
theorem mem_expandedBy_iff (h : g.WellFormed) {label : Category} {r : Rule} :
    r ∈ g.expandedBy label ↔ r ∈ g.rules ∧ ∃ l, r.right.head? = some l ∧ g.Chained label l := by
  simp only [expandedBy, mem_startFrom_iff, reaches_iff_chained h]
  constructor
  · rintro ⟨l, hl, hr⟩
    obtain ⟨hr, hq⟩ := h.mem_byFirst.1 hr
    exact ⟨hr, l, hq, hl⟩
  · rintro ⟨hr, l, hq, hl⟩
    exact ⟨l, hl, h.mem_byFirst.2 ⟨hr, hq⟩⟩

/-- The rules with one first pattern are as many there as among all rules. -/
theorem Loaded.count_rulesStarting (h : g.Loaded) {r : Rule} {l : Category}
    (hr : r.right.head? = some l) : (g.rulesStarting l).count r = g.rules.count r := by
  obtain ⟨source, dir, text, warnings, hload⟩ := h.exists_ofTextIn_eq
  have hcontents := Grammar.hasContents_of_ofTextIn hload
  rw [hcontents.rulesStarting, hcontents.rules.count_eq]
  exact List.count_filter (by simpa using hr)

/-- Rules of several first patterns, none of them twice, hold no rule more often than it is
declared. -/
theorem Loaded.count_flatMap_rulesStarting (h : g.Loaded) {ls : List Category} (hls : ls.Nodup)
    {r : Rule} (hr : r ∈ ls.flatMap g.rulesStarting) :
    (ls.flatMap g.rulesStarting).count r = g.rules.count r := by
  have hfirst {l : Category} (hl : r ∈ g.rulesStarting l) : r.right.head? = some l :=
    (h.wellFormed.mem_byFirst.1 hl).2
  induction ls with
  | nil => exact absurd hr List.not_mem_nil
  | cons l ls ih =>
    obtain ⟨hl, hls⟩ := List.nodup_cons.1 hls
    rw [List.flatMap_cons, List.mem_append] at hr
    rw [List.flatMap_cons, List.count_append]
    by_cases hstart : r ∈ g.rulesStarting l
    · -- The other labels are not the first pattern of the rule.
      have hnone : (ls.flatMap g.rulesStarting).count r = 0 := by
        refine List.count_eq_zero.2 fun hmem => ?_
        obtain ⟨l', hl', hr'⟩ := List.mem_flatMap.1 hmem
        obtain rfl := Option.some.inj ((hfirst hstart).symm.trans (hfirst hr'))
        exact hl hl'
      rw [hnone, Nat.add_zero, h.count_rulesStarting (hfirst hstart)]
    · rw [List.count_eq_zero.2 hstart, Nat.zero_add]
      exact ih hls (hr.resolve_left hstart)

/-- The expansion of labels ends. It leaves what the cell held, followed by the edges that the
category starts, each with its first pattern matched by the cell. The expanded labels are those
that chains of rules lead to, none of them twice, and their rules are those that the expansion
starts. So a rule is started by the expansion if a chain leads to its first pattern, and none is
started more often than it is declared. -/
theorem startEdges_expansion (h : g.Loaded) (label : Category) (c : Coord) (found : Cell) :
    (WellFounded fun s' s : Expansion => Expansion.Step g c s s') ∧
    ∃ last, ReflTransGen (Expansion.Step g c) (Expansion.first g label c found) last ∧
      last.queue = [] ∧ last.cell = found ++ g.startEdges label c ∧
      g.startEdges label c =
        (g.wildStartedBy label ++ g.expandedBy label).map (fun r => ⟨r, [c]⟩) ∧
      (∀ e ∈ g.startEdges label c, e.matched.length = 1 ∧ e.backpath = [c]) ∧
      last.visited.Nodup ∧ (∀ l, l ∈ last.visited ↔ g.Chained label l) ∧
      last.visited.reverse.flatMap g.rulesStarting = g.expandedBy label ∧
      (∀ r, r ∈ g.expandedBy label ↔
        r ∈ g.rules ∧ ∃ l, r.right.head? = some l ∧ g.Chained label l) ∧
      ∀ r ∈ g.expandedBy label, (g.expandedBy label).count r = g.rules.count r := by
  have hwf := h.wellFormed
  refine ⟨Expansion.wellFounded_step g c, ?_⟩
  obtain ⟨last, hrun, hqueue⟩ := Expansion.exists_run g c (Expansion.first g label c found)
  have hinv : Expansion.Inv g c (unaryHeads (g.wildStartedBy label) ++ [label])
      (found ++ opened (g.wildStartedBy label) c) last := by
    refine Expansion.Inv.run ?_ hrun
    rw [Expansion.first, map_head_complete_opened]
    exact Expansion.inv_of_visited_eq_nil _ _
  have hrules : last.visited.reverse.flatMap g.rulesStarting = g.expandedBy label :=
    hinv.flatMap_visited hqueue
  have hedges := hwf.startEdges_eq label c
  refine ⟨last, hrun, hqueue, ?_, hedges, ?_, hinv.nodup, ?_, hrules, ?_, ?_⟩
  · rw [hinv.cell, hrules, List.append_assoc, ← opened_append, ← startedBy_eq]
    rfl
  · intro e he
    rw [hedges] at he
    obtain ⟨r, hr, rfl⟩ := List.mem_map.1 he
    have hdeclared : r ∈ g.rules := by
      rcases List.mem_append.1 hr with hr | hr
      · exact (hwf.mem_wildStartedBy.1 hr).1
      · exact ((mem_expandedBy_iff hwf).1 hr).1
    have hpos := List.length_pos_iff.2 (hwf.rule r hdeclared).right_ne_nil
    refine ⟨?_, rfl⟩
    rw [Edge.matched, List.length_take, List.length_singleton]
    exact Nat.min_eq_left hpos
  · exact fun l => (hinv.mem_visited_iff hqueue).trans (reaches_iff_chained hwf)
  · exact fun r => mem_expandedBy_iff hwf
  · intro r hr
    rw [← hrules] at hr ⊢
    exact h.count_flatMap_rulesStarting ((List.reverse_perm _).nodup_iff.2 hinv.nodup) hr

/-- Rules of one pattern that lead from each of two categories to the other, one of which is made
from a terminal through a wildcard. -/
theorem startEdges_expansion_of_cycle :
    let g := RuleSet.ofText
      "a ==> +b . b ==> +a | +N* . c ==> +a, VB . a ==> +NN . @START S ."
    let start (head : Category) (right : List Category) : Edge := ⟨⟨head, right, some 0⟩, [⟨0, 0⟩]⟩
    g.Loaded ∧ ∃ last,
      ReflTransGen (Expansion.Step g ⟨0, 0⟩)
        (Expansion.first g (Edge.lexical "NN").head ⟨0, 0⟩ [Edge.lexical "NN"]) last ∧
      last.queue = [] ∧ last.visited.Nodup ∧
      last.cell = [Edge.lexical "NN", start "b" ["N*"], start "a" ["b"], start "a" ["NN"],
        start "b" ["a"], start "c" ["a", "VB"]] := by
  intro g start
  have hg : g.Loaded := loaded_ofText (by decide +kernel)
  obtain ⟨-, last, hrun, hqueue, hcell, -, -, hnodup, -⟩ :=
    startEdges_expansion hg (Edge.lexical "NN").head ⟨0, 0⟩ [Edge.lexical "NN"]
  have hedges : g.startEdges (Edge.lexical "NN").head ⟨0, 0⟩ = [start "b" ["N*"],
      start "a" ["b"], start "a" ["NN"], start "b" ["a"], start "c" ["a", "VB"]] := by
    decide +kernel
  refine ⟨hg, last, hrun, hqueue, hnodup, ?_⟩
  rw [hcell, hedges]
  rfl

end RuleSet

end Chunker
