import Chunker.Proofs.Chart.Cover
import Chunker.Proofs.Chart.Filling
import Mathlib.Data.List.Forall2

/-!
# The forced root

The edge that parsing adds is made from a cover of all words: its rule has the category of the
best complete edge of each cell, and no governor.

## Main results

* `Chart.addedRoot?_eq_some` : what the added root is made of.
-/

namespace Chunker

/-- An edge shifted by several cells has matched them one after the other. -/
theorem Edge.eq_of_shiftAll {cs : List Coord} {e e' : Edge} (h : e.shiftAll cs = some e') :
    e' = ⟨e.rule, e.backpath ++ cs⟩ := by
  induction cs generalizing e with
  | nil =>
    obtain rfl := Option.some.inj h
    rw [List.append_nil]
  | cons c cs ih =>
    rw [shiftAll, List.foldlM_cons] at h
    obtain ⟨e₁, h₁, h₂⟩ := Option.bind_eq_some_iff.1 h
    rw [shift] at h₁
    split at h₁
    · obtain rfl := Option.some.inj h₁
      rw [ih h₂, List.append_assoc]
      rfl
    · cases h₁

theorem Edge.exists_shiftAll {cs : List Coord} {e : Edge}
    (h : e.backpath.length + cs.length ≤ e.rule.right.length) : ∃ e', e.shiftAll cs = some e' := by
  induction cs generalizing e with
  | nil => exact ⟨e, rfl⟩
  | cons c cs ih =>
    rw [List.length_cons] at h
    have hactive : e.isActive := by
      simp only [isActive, decide_eq_true_eq]
      omega
    rw [shiftAll, List.foldlM_cons, shift, if_pos hactive]
    refine ih ?_
    rw [List.length_append, List.length_singleton, Nat.add_assoc, Nat.add_comm 1]
    exact h

namespace Chart

variable {g : RuleSet} {chart : Chart}

/-! ### Categories of a cover -/

theorem forall₂_of_bestHeads {cs : List Coord} {xs : List Category}
    (h : chart.bestHeads g cs = .ok xs) :
    List.Forall₂ (fun c x => ∃ e, g.best? (chart.complete c) = some e ∧ e.head = x) cs xs := by
  induction cs generalizing xs with
  | nil =>
    obtain rfl := Except.ok.inj h
    exact .nil
  | cons c cs ih =>
    rw [bestHeads] at h
    split at h
    · cases h
    · rename_i e he
      split at h
      · cases h
      · rename_i heads hheads
        obtain rfl := Except.ok.inj h
        exact .cons ⟨e, he, rfl⟩ (ih hheads)

theorem exists_bestHeads_eq_ok {cs : List Coord} (h : ∀ c ∈ cs, chart.complete c ≠ []) :
    ∃ xs, chart.bestHeads g cs = .ok xs := by
  induction cs with
  | nil => exact ⟨[], rfl⟩
  | cons c cs ih =>
    obtain ⟨xs, hxs⟩ := ih fun d hd => h d (List.mem_cons_of_mem c hd)
    obtain ⟨e, he⟩ := Option.ne_none_iff_exists'.1
      (mt (RuleSet.best?_eq_none_iff (g := g)).1 (h c List.mem_cons_self))
    exact ⟨e.head :: xs, by simp only [bestHeads, he, hxs]⟩

/-! ### The edge of a cover -/

/-- A cover of all words makes an edge for the start symbol: its patterns are the categories of the
best complete edges of the cells. -/
theorem exists_forcedRoot_eq_ok {cs : List Coord} (h : chart.cover g 0 chart.size = .ok cs) :
    ∃ xs, List.Forall₂ (fun c x => ∃ e, g.best? (chart.complete c) = some e ∧ e.head = x) cs xs ∧
      chart.forcedRoot g = .ok ⟨⟨g.start, xs, none⟩, cs⟩ := by
  obtain ⟨xs, hxs⟩ := exists_bestHeads_eq_ok (g := g) (consecutive_of_cover (Nat.zero_le _) h).2
  have hheads := forall₂_of_bestHeads hxs
  have hshift : ∃ e, Edge.shiftAll ⟨⟨g.start, xs, none⟩, []⟩ cs = some e :=
    Edge.exists_shiftAll (by rw [List.length_nil, Nat.zero_add, hheads.length_eq])
  obtain ⟨e, he⟩ := hshift
  refine ⟨xs, hheads, ?_⟩
  simp only [forcedRoot, h, hxs, he]
  rw [Edge.eq_of_shiftAll he, List.nil_append]

theorem exists_cover_of_forcedRoot_eq_ok {e : Edge} (h : chart.forcedRoot g = .ok e) :
    ∃ cs xs, chart.cover g 0 chart.size = .ok cs ∧
      List.Forall₂ (fun c x => ∃ e, g.best? (chart.complete c) = some e ∧ e.head = x) cs xs ∧
      e = ⟨⟨g.start, xs, none⟩, cs⟩ := by
  cases hcover : chart.cover g 0 chart.size with
  | error err =>
    simp only [forcedRoot, hcover] at h
    cases h
  | ok cs =>
    obtain ⟨xs, hheads, he⟩ := exists_forcedRoot_eq_ok hcover
    exact ⟨cs, xs, rfl, hheads, Except.ok.inj (h.symm.trans he)⟩

theorem cover_eq_error_of_forcedRoot {err : ParseError} (h : chart.forcedRoot g = .error err) :
    chart.cover g 0 chart.size = .error err := by
  cases hcover : chart.cover g 0 chart.size with
  | error err' =>
    simp only [forcedRoot, hcover, Except.error.injEq] at h
    rw [h]
  | ok cs =>
    obtain ⟨xs, -, he⟩ := exists_forcedRoot_eq_ok hcover
    rw [he] at h
    cases h

/-! ### The added edge -/

/-- What the added root is made of: there is no root without it, its cells are a cover of all
words, and its patterns are the categories of their best complete edges. -/
theorem addedRoot?_eq_some {e : Edge} (h : chart.addedRoot? g = some e) :
    chart.size ≠ 0 ∧ (chart.fill g).root? g = none ∧ ∃ cs xs,
      (chart.fill g).cover g 0 chart.size = .ok cs ∧
      List.Forall₂ (fun c x =>
        ∃ e, g.best? ((chart.fill g).complete c) = some e ∧ e.head = x) cs xs ∧
      e = ⟨⟨g.start, xs, none⟩, cs⟩ := by
  rw [addedRoot?] at h
  split at h
  · cases h
  · rename_i hsize
    split at h
    · cases h
    · rename_i hroot
      refine ⟨hsize, hroot, ?_⟩
      rw [← size_fill g chart]
      cases hforced : (chart.fill g).forcedRoot g with
      | error err =>
        rw [hforced] at h
        cases h
      | ok e' =>
        rw [hforced] at h
        obtain rfl := Option.some.inj h
        exact exists_cover_of_forcedRoot_eq_ok hforced

theorem head_of_addedRoot? {e : Edge} (h : chart.addedRoot? g = some e) : e.head = g.start := by
  obtain ⟨-, -, _, _, -, -, rfl⟩ := addedRoot?_eq_some h
  rfl

theorem isComplete_of_addedRoot? {e : Edge} (h : chart.addedRoot? g = some e) : e.isComplete := by
  obtain ⟨-, -, cs, xs, -, hheads, rfl⟩ := addedRoot?_eq_some h
  simp [Edge.isComplete, Edge.isActive, hheads.length_eq]

/-! ### The outcome -/

/-- A failure to parse a chart with words is a failure to cover them, and leaves the filled
chart. -/
theorem parse_eq_error {err : ParseError} (hsize : chart.size ≠ 0)
    (h : (chart.parse g).1 = .error err) :
    (chart.fill g).cover g 0 chart.size = .error err ∧ (chart.parse g).2 = chart.fill g := by
  rw [parse, if_neg hsize] at h ⊢
  dsimp only at h ⊢
  split at h
  · cases h
  · split at h
    · rename_i err' hforced
      obtain rfl := Except.error.inj h
      rw [← size_fill g chart]
      exact ⟨cover_eq_error_of_forcedRoot hforced, rfl⟩
    · cases h

theorem parse_eq_ok (hsize : chart.size ≠ 0)
    (h : ∀ j < chart.size, (chart.fill g).complete ⟨0, j⟩ ≠ []) : (chart.parse g).1 = .ok () := by
  obtain ⟨cs, hcs⟩ := exists_cover_eq_ok (g := g) fun j (_ : 0 ≤ j) => h j
  cases hparse : (chart.parse g).1 with
  | ok => rfl
  | error err =>
    rw [(parse_eq_error hsize hparse).1] at hcs
    cases hcs

end Chart

end Chunker
