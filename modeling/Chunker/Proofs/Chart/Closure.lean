import Chunker.Chart.Closure
import Chunker.Proofs.Grammar.Matching
import Chunker.Proofs.Grammar.WellFormed
import Chunker.Proofs.Position
import Mathlib.Logic.Relation

/-!
# Which rules a complete edge starts

A queue of labels starts the rules of all labels that are reached from it, a label being reached
from another if a rule of one pattern leads from one to the other. That each label is expanded
once loses none of them, and ends the work also where labels lead back to each other.

The rules are started in an order in which every label is made before it is used: the first
pattern of a started rule is a label of the queue or the category of a rule of one pattern that
was started before. Trees are read off a chart by this order.

## Main definitions

* `RuleSet.Reaches` : the labels that are reached from a queue.
* `RuleSet.Starts` : the match of a category with the first pattern of a rule.
* `RuleSet.startedDirectly` : the rules that a category starts through either index.

## Main results

* `RuleSet.mem_startFrom_iff` : a queue starts the rules of the labels that it reaches.
* `RuleSet.WellFormed.mem_startedDirectly` : a category starts the rules whose first pattern it
  matches.
* `RuleSet.mem_startedBy_iff` : it starts these rules directly, and others in turn.
* `RuleSet.startedBy_order` : every rule is started by the category or by an earlier rule.
-/

namespace Chunker.RuleSet

open Relation

/-! ### Reached labels -/

/-- The labels that are reached from a queue by rules of one pattern. -/
inductive Reaches (ix : Index Category Rule) (queue : List Category) : Category → Prop
  | queued {label : Category} (h : label ∈ queue) : Reaches ix queue label
  | made {label : Category} {r : Rule} (h : Reaches ix queue label) (hr : r ∈ ix.get label)
      (hu : r.isUnary) : Reaches ix queue r.head

theorem mem_unaryHeads {rs : List Rule} {c : Category} :
    c ∈ unaryHeads rs ↔ ∃ r ∈ rs, r.isUnary ∧ r.head = c := by
  simp [unaryHeads, and_assoc]

section StartFrom

variable {ix : Index Category Rule} {queue : List Category}

private theorem mem_get_of_mem_get_without {label l : Category} {r : Rule}
    (h : r ∈ (ix.without label).get l) : l ≠ label ∧ r ∈ ix.get l := by
  by_cases hl : l = label
  · rw [hl, Index.get_without_self] at h
    exact absurd h List.not_mem_nil
  · rw [Index.get_without_of_ne ix hl] at h
    exact ⟨hl, h⟩

private theorem Reaches.of_without {label l : Category}
    (h : Reaches (ix.without label) (queue ++ unaryHeads (ix.get label)) l) :
    Reaches ix (label :: queue) l := by
  induction h with
  | queued h =>
    rcases List.mem_append.1 h with h | h
    · exact .queued (List.mem_cons_of_mem label h)
    · obtain ⟨r, hr, hu, rfl⟩ := mem_unaryHeads.1 h
      exact .made (.queued List.mem_cons_self) hr hu
  | made _ hr hu ih => exact .made ih (mem_get_of_mem_get_without hr).2 hu

theorem exists_reaches_of_mem_startFrom {r : Rule} (h : r ∈ startFrom ix queue) :
    ∃ label, Reaches ix queue label ∧ r ∈ ix.get label := by
  fun_induction startFrom ix queue with
  | case1 => exact absurd h List.not_mem_nil
  | case2 ix label queue rs ih =>
    rcases List.mem_append.1 h with h | h
    · exact ⟨label, .queued List.mem_cons_self, h⟩
    · obtain ⟨l, hl, hr⟩ := ih h
      exact ⟨l, hl.of_without, (mem_get_of_mem_get_without hr).2⟩

theorem get_subset_startFrom {label : Category} (h : label ∈ queue) :
    ix.get label ⊆ startFrom ix queue := by
  fun_induction startFrom ix queue with
  | case1 => exact absurd h List.not_mem_nil
  | case2 ix label' queue rs ih =>
    by_cases hl : label = label'
    · subst hl
      exact List.subset_append_left _ _
    · have hqueue : label ∈ queue ++ unaryHeads rs :=
        List.mem_append_left _ (List.mem_of_ne_of_mem hl h)
      rw [← Index.get_without_of_ne ix hl]
      exact List.Subset.trans (ih hqueue) (List.subset_append_right _ _)

theorem get_head_subset_startFrom {r : Rule} (hr : r ∈ startFrom ix queue) (hu : r.isUnary) :
    ix.get r.head ⊆ startFrom ix queue := by
  fun_induction startFrom ix queue with
  | case1 => exact absurd hr List.not_mem_nil
  | case2 ix label queue rs ih =>
    by_cases hl : r.head = label
    · rw [hl]
      exact List.subset_append_left _ _
    · rw [← Index.get_without_of_ne ix hl]
      refine List.Subset.trans ?_ (List.subset_append_right _ _)
      rcases List.mem_append.1 hr with hr | hr
      · exact get_subset_startFrom
          (List.mem_append_right _ (mem_unaryHeads.2 ⟨r, hr, hu, rfl⟩))
      · exact ih hr

/-- A queue starts the rules of the labels that it reaches, and no others. -/
theorem mem_startFrom_iff {r : Rule} :
    r ∈ startFrom ix queue ↔ ∃ label, Reaches ix queue label ∧ r ∈ ix.get label := by
  refine ⟨exists_reaches_of_mem_startFrom, ?_⟩
  rintro ⟨label, hl, hr⟩
  suffices h : ix.get label ⊆ startFrom ix queue from h hr
  clear hr
  induction hl with
  | queued h => exact get_subset_startFrom h
  | made _ hr hu ih => exact get_head_subset_startFrom (ih hr) hu

/-- The label of a started rule is in the queue, or an earlier rule of one pattern makes it. -/
theorem startFrom_order {before after : List Rule} {r : Rule}
    (h : startFrom ix queue = before ++ r :: after) :
    ∃ label, r ∈ ix.get label ∧
      (label ∈ queue ∨ ∃ r' ∈ before, r'.isUnary ∧ r'.head = label) := by
  fun_induction startFrom ix queue generalizing before with
  | case1 => simp at h
  | case2 ix label queue rs =>
    rename_i ih
    rcases append_eq_append_cons h with ⟨after', hrs⟩ | ⟨before', rfl, hrest⟩
    · have hmem : r ∈ rs := hrs ▸ List.mem_append_right _ List.mem_cons_self
      exact ⟨label, hmem, .inl List.mem_cons_self⟩
    · obtain ⟨l, hr, hl⟩ := ih hrest
      refine ⟨l, (mem_get_of_mem_get_without hr).2, ?_⟩
      rcases hl with hl | ⟨r', hr', hu, rfl⟩
      · rcases List.mem_append.1 hl with hl | hl
        · exact .inl (List.mem_cons_of_mem label hl)
        · obtain ⟨r', hr', hu, rfl⟩ := mem_unaryHeads.1 hl
          exact .inr ⟨r', List.mem_append_left _ hr', hu, rfl⟩
      · exact .inr ⟨r', List.mem_append_right _ hr', hu, rfl⟩

end StartFrom

/-! ### Started rules -/

/-- The match of a category with the first pattern of a rule: the two are equal, or the category
is a terminal and the pattern matches it through a wildcard. -/
def Starts (g : RuleSet) (c q : Category) : Prop :=
  q = c ∨ g.isTerminal c ∧ Category.isWild q ∧ g.accepts q c

namespace Starts

variable {g : RuleSet} {c q : Category}

theorem accepts (h : g.Starts c q) : g.accepts q c := by
  rcases h with rfl | ⟨-, -, h⟩
  · exact g.accepts_self q
  · exact h

end Starts

section Started

variable {g : RuleSet} {c q : Category} {r : Rule}

theorem starts_iff_accepts (hc : g.isTerminal c) : g.Starts c q ↔ g.accepts q c := by
  refine ⟨Starts.accepts, fun ha => ?_⟩
  cases hw : Category.isWild q with
  | true => exact .inr ⟨hc, hw, ha⟩
  | false => exact .inl ((accepts_iff_eq hw).1 ha)

theorem starts_iff_eq (hc : c ∈ g.nonterminals) : g.Starts c q ↔ q = c :=
  or_iff_left fun h => isTerminal_iff.1 h.1 hc

/-- The rules that a category starts through either index, without the rules that they start in
turn. -/
def startedDirectly (g : RuleSet) (c : Category) : List Rule :=
  g.wildStartedBy c ++ g.rulesStarting c

/-- The rules that a category starts are those that it starts directly, and those that are started
in turn, one after the other, by rules of one pattern. -/
theorem mem_startedBy_iff : r ∈ g.startedBy c ↔ ∃ r₀ ∈ g.startedDirectly c,
    ReflTransGen (fun r₁ r₂ => r₁.isUnary ∧ r₂ ∈ g.rulesStarting r₁.head) r₀ r := by
  rw [startedBy, startedDirectly, List.mem_append, mem_startFrom_iff]
  constructor
  · rintro (hr | ⟨label, hlabel, hr⟩)
    · exact ⟨r, List.mem_append_left _ hr, .refl⟩
    · -- Each label that is reached is the category, or that of a started rule of one pattern.
      induction hlabel generalizing r with
      | queued hqueue =>
        rcases List.mem_append.1 hqueue with hunary | hself
        · obtain ⟨r', hr', hu, rfl⟩ := mem_unaryHeads.1 hunary
          exact ⟨r', List.mem_append_left _ hr', .single ⟨hu, hr⟩⟩
        · obtain rfl := List.mem_singleton.1 hself
          exact ⟨r, List.mem_append_right _ hr, .refl⟩
      | made _ hr' hu ih =>
        obtain ⟨r₀, hr₀, hchain⟩ := ih hr'
        exact ⟨r₀, hr₀, hchain.tail ⟨hu, hr⟩⟩
  · rintro ⟨r₀, hr₀, hchain⟩
    induction hchain with
    | refl =>
      refine (List.mem_append.1 hr₀).imp_right fun hr => ⟨c, .queued ?_, hr⟩
      exact List.mem_append_right _ List.mem_cons_self
    | @tail r₁ r₂ _ hstep ih =>
      obtain ⟨hu, hr⟩ := hstep
      refine .inr ⟨r₁.head, ?_, hr⟩
      rcases ih with hwild | ⟨label, hlabel, hr₁⟩
      · exact .queued (List.mem_append_left _ (mem_unaryHeads.2 ⟨r₁, hwild, hu, rfl⟩))
      · exact .made hlabel hr₁ hu

end Started

namespace WellFormed

variable {g : RuleSet} {c q : Category} {r : Rule}

/-- The rules that a terminal starts through a wildcard. Filing them by their first character
loses none, because a first pattern begins with a letter and so does what it matches. -/
theorem mem_wildStartedBy (h : g.WellFormed) :
    r ∈ g.wildStartedBy c ↔ r ∈ g.rules ∧
      ∃ q, r.right.head? = some q ∧ g.isTerminal c ∧ Category.isWild q ∧ g.accepts q c := by
  rw [wildStartedBy]
  by_cases hc : g.isTerminal c
  · rw [if_pos hc]
    cases hcs : c.toList with
    | nil =>
      refine ⟨fun hr => absurd hr List.not_mem_nil, ?_⟩
      rintro ⟨hr, q, hq, -, -, ha⟩
      obtain ⟨x, hx, hletter⟩ := (h.rule r hr).pattern q (List.mem_of_head? hq)
      have hne : x ≠ '*' := by
        rintro rfl
        exact absurd hletter (by decide)
      have hhead := head?_of_accepts ha hx hne
      rw [hcs] at hhead
      exact absurd hhead (by simp)
    | cons x xs =>
      simp only [List.mem_filter, wildRules, h.mem_wild, Option.any_eq_true]
      constructor
      · rintro ⟨⟨hr, q, hq, hw, -⟩, q', hq', ha⟩
        obtain rfl := Option.some.inj (hq.symm.trans hq')
        exact ⟨hr, q, hq, hc, hw, ha⟩
      · rintro ⟨hr, q, hq, -, hw, ha⟩
        obtain ⟨y, hy, hletter⟩ := (h.rule r hr).pattern q (List.mem_of_head? hq)
        have hne : y ≠ '*' := by
          rintro rfl
          exact absurd hletter (by decide)
        have hhead := head?_of_accepts ha hy hne
        rw [hcs, List.head?_cons, Option.some.injEq] at hhead
        exact ⟨⟨hr, q, hq, hw, hhead ▸ hy⟩, q, hq, ha⟩
  · rw [if_neg hc]
    refine ⟨fun hr => absurd hr List.not_mem_nil, ?_⟩
    rintro ⟨-, q, -, hc', -⟩
    exact absurd hc' hc

/-- The rules that a category starts directly are those whose first pattern it matches. -/
theorem mem_startedDirectly (h : g.WellFormed) :
    r ∈ g.startedDirectly c ↔ r ∈ g.rules ∧ ∃ q, r.right.head? = some q ∧ g.Starts c q := by
  rw [startedDirectly, List.mem_append, h.mem_wildStartedBy, rulesStarting, h.mem_byFirst,
    ← and_or_left]
  refine and_congr_right fun _ => ?_
  constructor
  · rintro (⟨q, hq, hs⟩ | hq)
    · exact ⟨q, hq, .inr hs⟩
    · exact ⟨c, hq, .inl rfl⟩
  · rintro ⟨q, hq, rfl | hs⟩
    · exact .inr hq
    · exact .inl ⟨q, hq, hs⟩

theorem mem_startedBy_of_starts (h : g.WellFormed) (hr : r ∈ g.rules)
    (hq : r.right.head? = some q) (hs : g.Starts c q) : r ∈ g.startedBy c :=
  mem_startedBy_iff.2 ⟨r, h.mem_startedDirectly.2 ⟨hr, q, hq, hs⟩, .refl⟩

/-- A started rule of one pattern starts the rules whose first pattern is its category. -/
theorem mem_startedBy_of_unary (h : g.WellFormed) {r' : Rule} (hr' : r' ∈ g.startedBy c)
    (hu : r'.isUnary) (hr : r ∈ g.rules) (hq : r.right.head? = some r'.head) :
    r ∈ g.startedBy c := by
  obtain ⟨r₀, hr₀, hchain⟩ := mem_startedBy_iff.1 hr'
  exact mem_startedBy_iff.2 ⟨r₀, hr₀, hchain.tail ⟨hu, h.mem_byFirst.2 ⟨hr, hq⟩⟩⟩

/-- A started rule is started by the category, or by an earlier rule of one pattern. -/
theorem startedBy_order (h : g.WellFormed) {before after : List Rule}
    (hs : g.startedBy c = before ++ r :: after) :
    r ∈ g.rules ∧ ∃ q, r.right.head? = some q ∧
      (g.Starts c q ∨ ∃ r' ∈ before, r'.isUnary ∧ r'.head = q) := by
  rw [startedBy] at hs
  rcases append_eq_append_cons hs with ⟨after', hwild⟩ | ⟨before', rfl, hfrom⟩
  · have hmem : r ∈ g.wildStartedBy c := hwild ▸ List.mem_append_right _ List.mem_cons_self
    obtain ⟨hr, q, hq, hs⟩ := h.mem_wildStartedBy.1 hmem
    exact ⟨hr, q, hq, .inl (.inr hs)⟩
  · obtain ⟨label, hr, hl⟩ := startFrom_order hfrom
    obtain ⟨hr, hq⟩ := h.mem_byFirst.1 hr
    refine ⟨hr, label, hq, ?_⟩
    rcases hl with hl | ⟨r', hr', hu⟩
    · rcases List.mem_append.1 hl with hl | hl
      · obtain ⟨r', hr', hu⟩ := mem_unaryHeads.1 hl
        exact .inr ⟨r', List.mem_append_left _ hr', hu⟩
      · exact .inl (.inl (List.mem_singleton.1 hl))
    · exact .inr ⟨r', List.mem_append_right _ hr', hu⟩

/-- The edges that a category starts are those of the started rules, each with its first pattern
matched by the cell. -/
theorem startEdges_eq (h : g.WellFormed) (c : Category) (cell : Coord) :
    g.startEdges c cell = (g.startedBy c).map fun r => ⟨r, [cell]⟩ := by
  have hrules : ∀ r ∈ g.startedBy c, r ∈ g.rules := fun r hr => by
    obtain ⟨before, after, hs⟩ := List.append_of_mem hr
    exact (h.startedBy_order hs).1
  rw [startEdges, ← List.filterMap_eq_map]
  refine List.filterMap_congr fun r hr => ?_
  have hpos := List.length_pos_iff.2 (h.rule r (hrules r hr)).right_ne_nil
  simp [Edge.shift, Edge.isActive, hpos]

end WellFormed

end Chunker.RuleSet
