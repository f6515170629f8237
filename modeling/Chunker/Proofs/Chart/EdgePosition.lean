import Chunker.Proofs.Chart.Representation

/-!
# The position of an edge

How far an edge has come in its rule is the number of the cells that matched patterns. An edge may
also carry this position as a number of its own, which starts at zero and is counted up by every
match. What is asked of the edge is then read off this number: the patterns before and after it,
whether the edge is complete, and the written form.

Number and cells are two records of one thing only if every match changes both. They do not agree in
any positioned edge, but in those that are made from a rule by matches; and every edge of a chart is
one of these without its position, and of no more than one. So nothing is lost without it.

## Main definitions

* `PositionedEdge` : an edge with its position.
* `PositionedEdge.edge` : the edge without it.
* `PositionedEdge.Made` : the positioned edges that are made by matches.

## Main results

* `PositionedEdge.Made.position_eq` : the position counts the cells.
* `PositionedEdge.Made.observations_eq`, `PositionedEdge.Made.map_edge_shift` : nothing that is
  asked of an edge depends on its position.
* `Chart.existsUnique_made_of_mem_cell_run` : the edges of a chart have positions.
-/

namespace Chunker

/-- A rule with the number of its matched patterns and the cells that matched them. -/
structure PositionedEdge where
  rule : Rule
  position : Nat
  backpath : List Coord

namespace PositionedEdge

/-- A rule without matches. -/
def new (r : Rule) : PositionedEdge :=
  ⟨r, 0, []⟩

/-- The patterns before the position. -/
def matched (p : PositionedEdge) : List Category :=
  p.rule.right.take p.position

/-- The patterns after it. -/
def pending (p : PositionedEdge) : List Category :=
  p.rule.right.drop p.position

/-- Holds of an edge whose position is not the end of its rule. -/
def isActive (p : PositionedEdge) : Bool :=
  p.position < p.rule.right.length

/-- The edge with its next pattern matched by a cell. A complete edge has none. -/
def shift (p : PositionedEdge) (c : Coord) : Option PositionedEdge :=
  if p.isActive then some ⟨p.rule, p.position + 1, p.backpath ++ [c]⟩ else none

/-- The written form. -/
def text (p : PositionedEdge) : String :=
  p.rule.head ++ " →" ++ String.join (p.matched.map (" " ++ ·)) ++ " ・" ++
    String.join (p.pending.map (" " ++ ·)) ++ "   backpath:" ++
    String.join (p.backpath.map (" " ++ ·.text))

/-- The edge without its position. -/
def edge (p : PositionedEdge) : Edge :=
  ⟨p.rule, p.backpath⟩

/-- Holds of the edges that are made from a rule by matching its patterns one after the other. -/
inductive Made : PositionedEdge → Prop
  | new (r : Rule) : Made (new r)
  | shift {p p' : PositionedEdge} {c : Coord} (h : Made p) (hp : p.shift c = some p') : Made p'

variable {p p' : PositionedEdge}

theorem shift_eq_some_iff {c : Coord} : p.shift c = some p' ↔
    p.position < p.rule.right.length ∧ p' = ⟨p.rule, p.position + 1, p.backpath ++ [c]⟩ := by
  simp [shift, isActive, eq_comm]

namespace Made

theorem position_eq (h : p.Made) : p.position = p.backpath.length := by
  induction h with
  | new r => rfl
  | shift _ hp ih =>
    obtain ⟨-, rfl⟩ := shift_eq_some_iff.1 hp
    rw [List.length_append, List.length_singleton, ih]

theorem position_le (h : p.Made) : p.position ≤ p.rule.right.length := by
  induction h with
  | new r => exact Nat.zero_le _
  | shift _ hp _ =>
    obtain ⟨hlt, rfl⟩ := shift_eq_some_iff.1 hp
    exact hlt

theorem length_matched (h : p.Made) : p.matched.length = p.position := by
  rw [matched, List.length_take, Nat.min_eq_left h.position_le]

/-- A made edge is told by what it is without its position. -/
theorem eq_of_edge_eq (h : p.Made) (h' : p'.Made) (heq : p.edge = p'.edge) : p = p' := by
  obtain ⟨r, n, cs⟩ := p
  obtain ⟨r', n', cs'⟩ := p'
  obtain ⟨rfl, rfl⟩ := Edge.mk.inj heq
  obtain rfl : n = n' := h.position_eq.trans h'.position_eq.symm
  rfl

/-- Whatever is read off the position is read off the cells as well. -/
theorem observations_eq (h : p.Made) :
    p.edge.matched = p.matched ∧ p.edge.pending = p.pending ∧
      p.edge.next? = p.pending.head? ∧ p.edge.isActive = p.isActive ∧ p.edge.text = p.text := by
  obtain ⟨r, n, cs⟩ := p
  obtain rfl : n = cs.length := h.position_eq
  exact ⟨rfl, rfl, rfl, rfl, rfl⟩

/-- A match is the same without the position. -/
theorem map_edge_shift (h : p.Made) (c : Coord) : (p.shift c).map edge = p.edge.shift c := by
  obtain ⟨r, n, cs⟩ := p
  obtain rfl : n = cs.length := h.position_eq
  by_cases hlt : cs.length < r.right.length
  · simp [PositionedEdge.shift, isActive, Edge.shift, Edge.isActive, edge, hlt]
  · simp [PositionedEdge.shift, isActive, Edge.shift, Edge.isActive, edge, hlt]

theorem exists_made_of_shiftAll (h : p.Made) {cs : List Coord} {e : Edge}
    (he : p.edge.shiftAll cs = some e) : ∃ p' : PositionedEdge, p'.Made ∧ p'.edge = e := by
  induction cs generalizing p with
  | nil => exact ⟨p, h, Option.some.inj he⟩
  | cons c cs ih =>
    rw [Edge.shiftAll, List.foldlM_cons, ← h.map_edge_shift c] at he
    obtain ⟨_, hp, he⟩ := Option.bind_eq_some_iff.1 he
    obtain ⟨p', hp', rfl⟩ := Option.map_eq_some_iff.1 hp
    exact ih (h.shift hp') he

end Made

end PositionedEdge

namespace Chart

variable {g : RuleSet} {c : Coord} {e : Edge}

/-- **Every edge of a chart has one position.** After any calls, an edge in a cell is made by
matches, and the way it is made leaves no choice of its position. -/
theorem existsUnique_made_of_mem_cell_run (h : g.Loaded) (calls : List Call)
    (hc : c.within (run g {} calls).size) (he : e ∈ (run g {} calls).cell c) :
    ∃! p : PositionedEdge, p.Made ∧ p.edge = e := by
  obtain ⟨_, _, -, -, hrep⟩ := (stage_run h.wellFormed calls).represented h hc he
  obtain ⟨p, hp, hpe⟩ := (PositionedEdge.Made.new e.rule).exists_made_of_shiftAll hrep.shiftAll
  exact ⟨p, ⟨hp, hpe⟩, fun p' ⟨hp', hpe'⟩ => hp'.eq_of_edge_eq hp (hpe'.trans hpe.symm)⟩

end Chart

end Chunker
