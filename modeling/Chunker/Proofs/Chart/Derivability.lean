import Chunker.Proofs.Chart.ForcedRoot
import Chunker.Proofs.Chart.Origin

/-!
# What a chart holds is what is derivable

A rule set derives categories, and rules with some of their patterns matched, of the stretches of
a sentence. The relation is the least one closed under four rules and knows nothing of the order
in which a chart is filled: rules of one pattern may lead around in circles, and every way to
divide a stretch counts.

A filled chart holds exactly what is derivable. Soundness goes by induction on the cell and on the
position in it, because an edge enters a cell or is opened by an earlier edge; completeness goes by
induction on the derivation.

## Main definitions

* `Item` : a category, or a rule with a number of patterns matched.
* `RuleSet.Derivable` : what is derivable of the words of a tag sequence.
* `Chart.Holds` : what a chart holds.

## Main results

* `Chart.holds_fill_category_iff`, `Chart.holds_fill_rule_iff` : a filled chart holds what is
  derivable.
* `Chart.exists_mem_cell_parse_iff_derivable` : so does a parsed one, apart from the added root.
-/

namespace Chunker

/-- What may be found of a stretch of words: a category, or a rule with a number of its patterns
matched. -/
inductive Item where
  | category (x : Category)
  | rule (r : Rule) (matched : Nat)

/-! ### Derivations -/

/-- What is derivable of the stretches of a sentence under a tag sequence. A word brings its
categories. A rule is started by a category that is its first pattern, or by a terminal that its
first pattern accepts through a wildcard. It is extended by a category of the next stretch that its
next pattern accepts, and brings its own category when all patterns are matched. -/
inductive RuleSet.Derivable (g : RuleSet) (s : Sentence) (k : Nat) : Coord → Item → Prop
  | seed {j : Nat} {x : Category} (h : s.Offers k j x) : Derivable g s k ⟨0, j⟩ (.category x)
  | start {c : Coord} {x q : Category} {r : Rule} (hx : Derivable g s k c (.category x))
      (hr : r ∈ g.rules) (hq : r.right.head? = some q)
      (hs : q = x ∨ g.isTerminal x ∧ Category.isWild q ∧ g.accepts q x) :
      Derivable g s k c (.rule r 1)
  | extend {a b i p : Nat} {x q : Category} {r : Rule}
      (hr : Derivable g s k ⟨a, i⟩ (.rule r p)) (hq : r.right[p]? = some q)
      (hx : Derivable g s k ⟨b, i + a + 1⟩ (.category x)) (ha : g.accepts q x) :
      Derivable g s k ⟨a + b + 1, i⟩ (.rule r (p + 1))
  | finish {c : Coord} {r : Rule} (h : Derivable g s k c (.rule r r.right.length)) :
      Derivable g s k c (.category r.head)

namespace RuleSet.Derivable

variable {g : RuleSet} {s : Sentence} {k : Nat} {c : Coord}

theorem within {x : Item} (h : g.Derivable s k c x) : c.within s.size := by
  induction h with
  | seed h =>
    obtain ⟨w, hw, -⟩ := h
    rw [Coord.within_iff_stop]
    exact (List.getElem?_eq_some_iff.1 hw).1
  | start _ _ _ _ ih => exact ih
  | extend _ _ _ _ ihr ihx =>
    rw [Coord.within_iff_stop] at ihx ⊢
    simp only [Coord.stop] at ihx ⊢
    omega
  | finish _ ih => exact ih

theorem le_length {r : Rule} {p : Nat} (h : g.Derivable s k c (.rule r p)) :
    p ≤ r.right.length := by
  cases h with
  | start _ _ hq _ =>
    obtain ⟨qs, hqs⟩ := List.head?_eq_some_iff.1 hq
    simp [hqs]
  | extend _ hq _ _ => exact (List.getElem?_eq_some_iff.1 hq).1

/-- The stretches of a division extend a rule as two stretches that follow one another do. -/
theorem of_mem_splits {l d : Coord} {p : Nat} {x q : Category} {r : Rule} (hs : (l, d) ∈ c.splits)
    (hr : g.Derivable s k l (.rule r p)) (hq : r.right[p]? = some q)
    (hx : g.Derivable s k d (.category x)) (ha : g.accepts q x) :
    g.Derivable s k c (.rule r (p + 1)) := by
  obtain ⟨a, i⟩ := l
  obtain ⟨b, j⟩ := d
  obtain ⟨hstart, hnext, hstop⟩ := Coord.mem_splits.1 hs
  simp only [Coord.stop] at hnext hstop
  subst hnext
  have hc : c = ⟨a + b + 1, i⟩ := by
    obtain ⟨span, start⟩ := c
    simp only [Coord.mk.injEq] at hstart hstop ⊢
    omega
  rw [hc]
  exact .extend hr hq hx ha

theorem mem_rules {x : Item} (h : g.Derivable s k c x) {r : Rule} {p : Nat} (hx : x = .rule r p) :
    r ∈ g.rules := by
  induction h generalizing p with
  | seed | finish => cases hx
  | start _ hr _ _ =>
    cases hx
    exact hr
  | extend _ _ _ _ ih =>
    cases hx
    exact ih rfl

end RuleSet.Derivable

namespace Chart

variable {g : RuleSet} {s : Sentence} {k : Nat} {c : Coord}

/-- What a chart holds of a stretch of words: the categories of the complete edges, and the rules
of all edges. -/
def Holds (chart : Chart) (c : Coord) : Item → Prop
  | .category x => ∃ e ∈ chart.cell c, e.isComplete ∧ e.head = x
  | .rule r p => ∃ e ∈ chart.cell c, e.rule = r ∧ e.backpath.length = p

/-! ### Soundness -/

/-- Holds of an edge that stands for something derivable: it is the category of a word, or its
rule is derivable with as many patterns as it has matched. -/
def Sound (g : RuleSet) (s : Sentence) (k : Nat) (c : Coord) (e : Edge) : Prop :=
  (∃ x, e = Edge.lexical x ∧ g.Derivable s k c (.category x)) ∨
    1 ≤ e.backpath.length ∧ g.Derivable s k c (.rule e.rule e.backpath.length)

namespace Sound

variable {e : Edge}

theorem category (h : Sound g s k c e) (hcomplete : e.isComplete) :
    g.Derivable s k c (.category e.head) := by
  rcases h with ⟨x, rfl, hx⟩ | ⟨-, hr⟩
  · exact hx
  · have hlength : e.backpath.length = e.rule.right.length :=
      Nat.le_antisymm hr.le_length (Edge.isComplete_iff.1 hcomplete)
    rw [hlength] at hr
    exact .finish hr

theorem rule_of_next? (h : Sound g s k c e) {q : Category} (hq : e.next? = some q) :
    g.Derivable s k c (.rule e.rule e.backpath.length) := by
  rcases h with ⟨x, rfl, -⟩ | ⟨-, hr⟩
  · cases hq
  · exact hr

end Sound

/-- Every edge of a filled chart is sound. -/
theorem sound_of_cell_fill (h : g.WellFormed) (c : Coord) (hc : c.within s.size)
    (before : List Edge) {after : List Edge} {e : Edge}
    (he : ((load g s k).fill g).cell c = before ++ e :: after) : Sound g s k c e := by
  -- Induction on the span of the cell and on the number of edges before the edge in it.
  rcases enters_or_opens h hc he with hin | ⟨e', he', ho⟩
  · cases hin with
    | offered hspan hx =>
      obtain ⟨_, j⟩ := c
      obtain rfl := hspan
      exact .inl ⟨_, rfl, .seed hx⟩
    | @extended l d e' q hs he' hq hm =>
      obtain ⟨hl, hd⟩ := Coord.span_lt_of_mem_splits hs
      obtain ⟨hlin, hdin⟩ := Coord.within_of_mem_splits hs hc
      obtain ⟨before₁, after₁, hcell₁⟩ := List.append_of_mem he'
      obtain ⟨e'', he'', hcomplete, ha⟩ := matchesAt_iff.1 hm
      obtain ⟨before₂, after₂, hcell₂⟩ := List.append_of_mem he''
      have hr := (sound_of_cell_fill h l hlin before₁ hcell₁).rule_of_next? hq
      have hx := (sound_of_cell_fill h d hdin before₂ hcell₂).category hcomplete
      rw [Edge.next?_eq] at hq
      refine .inr ?_
      rw [List.length_append, List.length_singleton]
      exact ⟨Nat.le_add_left 1 _, .of_mem_splits hs hr hq hx ha⟩
  · obtain ⟨before', after', hbefore⟩ := List.append_of_mem he'
    have hcell : ((load g s k).fill g).cell c = before' ++ e' :: (after' ++ e :: after) := by
      rw [he, hbefore, List.append_assoc, List.cons_append]
    have hx := sound_of_cell_fill h c hc before' hcell
    obtain ⟨q, hq, hs⟩ := ho.starts
    refine .inr ?_
    rw [ho.backpath]
    exact ⟨le_rfl, .start (hx.category ho.complete) ho.rule hq hs⟩
termination_by (c.span, before.length)
decreasing_by
  · exact Prod.Lex.left _ _ hl
  · exact Prod.Lex.left _ _ hd
  · refine Prod.Lex.right _ ?_
    rw [hbefore, List.length_append, List.length_cons]
    omega

theorem sound_of_mem_cell_fill (h : g.WellFormed) (hc : c.within s.size) {e : Edge}
    (he : e ∈ ((load g s k).fill g).cell c) : Sound g s k c e := by
  obtain ⟨before, after, hcell⟩ := List.append_of_mem he
  exact sound_of_cell_fill h c hc before hcell

/-! ### Completeness -/

theorem holds_fill_of_derivable (h : g.WellFormed) {x : Item} (hx : g.Derivable s k c x) :
    ((load g s k).fill g).Holds c x := by
  induction hx with
  | seed hx =>
    have hc := (RuleSet.Derivable.seed (g := g) hx).within
    exact ⟨_, mem_cell_of_enters hc (.offered rfl hx), Edge.isComplete_lexical _, rfl⟩
  | @start c _ q r hx hr hq hs ih =>
    obtain ⟨e, he, hcomplete, rfl⟩ := ih
    have ho : g.Opens c e ⟨r, [c]⟩ := ⟨hcomplete, hr, ⟨q, hq, hs⟩, rfl⟩
    exact ⟨_, mem_cell_of_opens h hx.within he ho, rfl, rfl⟩
  | @extend a b i p _ q r hr hq hx ha ihr ihx =>
    obtain ⟨e, he, rfl, rfl⟩ := ihr
    obtain ⟨e', he', hcomplete, rfl⟩ := ihx
    have hs : ((⟨a, i⟩, ⟨b, i + a + 1⟩) : Coord × Coord) ∈ Coord.splits ⟨a + b + 1, i⟩ := by
      simp only [Coord.mem_splits, Coord.stop, true_and]
      omega
    have hm : ((load g s k).fill g).matchesAt g q ⟨b, i + a + 1⟩ :=
      matchesAt_iff.2 ⟨e', he', hcomplete, ha⟩
    rw [← Edge.next?_eq] at hq
    have hc := (hr.extend (Edge.next?_eq ▸ hq) hx ha).within
    exact ⟨_, mem_cell_of_enters hc (.extended hs he hq hm), rfl, List.length_append⟩
  | finish _ ih =>
    obtain ⟨e, he, rfl, hlength⟩ := ih
    exact ⟨e, he, Edge.isComplete_iff.2 hlength.ge, rfl⟩

/-- A filled chart holds exactly what is derivable of categories. -/
theorem holds_fill_category_iff (h : g.WellFormed) (hc : c.within s.size) {x : Category} :
    ((load g s k).fill g).Holds c (.category x) ↔ g.Derivable s k c (.category x) := by
  refine ⟨?_, holds_fill_of_derivable h⟩
  rintro ⟨e, he, hcomplete, rfl⟩
  exact (sound_of_mem_cell_fill h hc he).category hcomplete

/-- A filled chart holds exactly what is derivable of rules with a pattern matched. -/
theorem holds_fill_rule_iff (h : g.WellFormed) (hc : c.within s.size) {r : Rule} {p : Nat}
    (hp : 1 ≤ p) :
    ((load g s k).fill g).Holds c (.rule r p) ↔ g.Derivable s k c (.rule r p) := by
  refine ⟨?_, holds_fill_of_derivable h⟩
  rintro ⟨e, he, rfl, rfl⟩
  rcases sound_of_mem_cell_fill h hc he with ⟨x, rfl, -⟩ | ⟨-, hr⟩
  · exact absurd hp (by simp [Edge.lexical])
  · exact hr

/-- Every edge of a filled chart has a governor, unlike an added root. -/
theorem governor_ne_none_of_mem_cell_fill (h : g.WellFormed) (hc : c.within s.size) {e : Edge}
    (he : e ∈ ((load g s k).fill g).cell c) : e.rule.governor ≠ none := by
  rcases sound_of_mem_cell_fill h hc he with ⟨x, rfl, -⟩ | ⟨-, hr⟩
  · exact Option.some_ne_none 0
  · obtain ⟨i, -, hi⟩ := (h.rule _ (hr.mem_rules rfl)).governor
    rw [hi]
    exact Option.some_ne_none i

/-- A parsed chart holds, besides the added root, what the filled chart holds. -/
theorem mem_cell_parse_iff (h : g.WellFormed) (hc : c.within s.size) {e : Edge} :
    e ∈ ((load g s k).parse g).2.cell c ∧ (load g s k).addedRoot? g ≠ some e ↔
      e ∈ ((load g s k).fill g).cell c := by
  rw [cell_parse (isFull_load g s k) hc, List.mem_append]
  constructor
  · rintro ⟨he | he, hne⟩
    · exact he
    · split at he
      · exact absurd (Option.mem_toList.1 he) hne
      · exact absurd he List.not_mem_nil
  · refine fun he => ⟨.inl he, fun hadded => ?_⟩
    obtain ⟨-, -, _, _, -, -, rfl⟩ := addedRoot?_eq_some hadded
    exact governor_ne_none_of_mem_cell_fill h hc he rfl

/-! ### Parsed charts -/

/-- A parsed chart holds a rule with a number of patterns matched, by an edge other than the added
root, if and only if that is derivable; whatever the outcome of parsing. -/
theorem exists_mem_cell_parse_iff_derivable (h : g.Loaded) (hc : c.within s.size) (r : Rule)
    {p : Nat} (hp : 1 ≤ p) :
    (∃ e ∈ ((load g s k).parse g).2.cell c,
        (load g s k).addedRoot? g ≠ some e ∧ e.rule = r ∧ e.backpath.length = p) ↔
      g.Derivable s k c (.rule r p) := by
  rw [← holds_fill_rule_iff h.wellFormed hc hp]
  refine exists_congr fun e => ?_
  rw [← and_assoc, mem_cell_parse_iff h.wellFormed hc]

/-- Rules of one pattern that lead around in a circle, and a wildcard at the second position. -/
theorem derivable_of_circular_rules :
    let g := RuleSet.ofText "a ==> +N* . b ==> +a . a ==> +b . s ==> a, +VB* . @START s ."
    let s : Sentence := ⟨"", [.tagged "dogs" "dog" "NNS", .tagged "bark" "bark" "VBP"], []⟩
    g.Loaded ∧ (⟨1, 0⟩ : Coord).within s.size ∧ 1 ≤ 2 ∧
      g.Derivable s 0 ⟨0, 0⟩ (.rule ⟨"a", ["b"], some 0⟩ 1) ∧
      g.Derivable s 0 ⟨1, 0⟩ (.rule ⟨"s", ["a", "VB*"], some 1⟩ 2) := by
  intro g s
  have hg : g.Loaded := RuleSet.loaded_ofText (by decide +kernel)
  refine ⟨hg, by decide, by decide, ?_, ?_⟩
  · refine (exists_mem_cell_parse_iff_derivable hg (by decide) _ le_rfl).1 ?_
    exact ⟨⟨⟨"a", ["b"], some 0⟩, [⟨0, 0⟩]⟩, by decide +kernel, by decide +kernel, rfl, rfl⟩
  · refine (exists_mem_cell_parse_iff_derivable hg (by decide) _ (by decide)).1 ?_
    exact ⟨⟨⟨"s", ["a", "VB*"], some 1⟩, [⟨0, 0⟩, ⟨0, 1⟩]⟩,
      by decide +kernel, by decide +kernel, rfl, rfl⟩

end Chart

end Chunker
