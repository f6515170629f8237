import Chunker.Proofs.Text.Fields
import Chunker.Proofs.Tree.Address

/-!
# The written form of a tree

The written form of a tree consists of lines, and the lines of a subtree are those of its own
written form, indented. The label of a node may look like any part of it: it may be a closing
bracket, or end as the line of an inner node does. Yet the form tells the tree as far as it is
written, if only the nodes are written without blanks: a line that is indented no further than the
line of a node ends the children of the node, and the first such line is its closing bracket.

## Main definitions

* `Tree.printedLines` : the lines of the written form.
* `Tree.LooksLike` : trees of the same shape whose nodes are written alike.

## Main results

* `Tree.lineLists_text` : the lines of the written form.
* `Tree.printedLines_append_inj` : the lines of a tree tell where they end.
* `Tree.text_eq_iff` : the written form determines the tree.
-/

namespace Chunker

/-! ### Plain lines -/

namespace Text

/-- Holds of a line that a text keeps as it is: it is not empty, and there is no newline in it
and no carriage return at its end. -/
def IsPlain (l : List Char) : Prop :=
  l ≠ [] ∧ '\n' ∉ l ∧ l.getLast? ≠ some '\r'

instance (f : List Char) : Decidable (IsField f) :=
  decidable_of_iff (f ≠ [] ∧ f.all fun c => !isBlank c) (by simp [IsField])

theorem IsField.isPlain {f : List Char} (h : IsField f) : IsPlain f := by
  obtain ⟨hne, hblank⟩ := h
  refine ⟨hne, fun hmem => ?_, fun hlast => ?_⟩
  · exact absurd (hblank _ hmem) (by decide)
  · exact absurd (hblank _ (List.mem_of_getLast? hlast)) (by decide)

theorem IsPlain.append {l l' : List Char} (hl : '\n' ∉ l) (h : IsPlain l') : IsPlain (l ++ l') := by
  obtain ⟨hne, hnewline, hlast⟩ := h
  refine ⟨List.append_ne_nil_of_right_ne_nil _ hne, ?_, ?_⟩
  · rw [List.mem_append, not_or]
    exact ⟨hl, hnewline⟩
  · rwa [List.getLast?_append_of_ne_nil _ hne]

/-- Plain lines with newlines between them are the lines of their text. -/
theorem lineLists_append_flatMap {l : List Char} {ls : List (List Char)}
    (h : ∀ x ∈ l :: ls, IsPlain x) : lineLists (l ++ ls.flatMap ('\n' :: ·)) = l :: ls := by
  induction ls generalizing l with
  | nil =>
    obtain ⟨hne, hnewline, -⟩ := h l List.mem_cons_self
    rw [List.flatMap_nil, List.append_nil, lineLists_of_not_mem hne hnewline]
  | cons l' ls ih =>
    obtain ⟨hl, hls⟩ := List.forall_mem_cons.1 h
    rw [List.flatMap_cons, List.cons_append, lineLists_append_newline hl.2.1, ih hls,
      withoutReturn, if_neg hl.2.2]

end Text

open Text

namespace Tree

/-! ### Lines of the written form -/

/-- A line with two spaces in front. -/
def indented (l : List Char) : List Char :=
  ' ' :: ' ' :: l

mutual

/-- The lines of the written form. -/
def printedLines : Tree → List (List Char)
  | node n ts =>
    if ts.isEmpty then [n.text.toList]
    else (n.text.toList ++ ['_', '[']) :: ((printedLinesOf ts).map indented ++ [[']']])

/-- The lines of the written forms of several trees. -/
def printedLinesOf : List Tree → List (List Char)
  | [] => []
  | t :: ts => printedLines t ++ printedLinesOf ts

end

theorem printedLines_leaf (n : Node) : (node n []).printedLines = [n.text.toList] := by
  rw [printedLines, List.isEmpty_nil, if_pos rfl]

theorem printedLines_node {ts : List Tree} (h : ts ≠ []) (n : Node) :
    (node n ts).printedLines =
      (n.text.toList ++ ['_', '[']) :: ((printedLinesOf ts).map indented ++ [[']']]) := by
  rw [printedLines, if_neg (by simpa using h)]

/-- Holds of a tree whose root is written as one field: with something, and without blanks. -/
def HasFieldRoot (t : Tree) : Prop :=
  Text.IsField t.root.text.toList

mutual

theorem isPlain_of_mem_printedLines (t : Tree) (h : All HasFieldRoot [t]) :
    ∀ l ∈ t.printedLines, IsPlain l := by
  match t with
  | node n [] =>
    rw [printedLines_leaf, List.forall_mem_singleton]
    exact IsField.isPlain (all_singleton_iff.1 h).1
  | node n (t :: ts) =>
    obtain ⟨hroot, hchildren⟩ := all_singleton_iff.1 h
    have hlines := isPlain_of_mem_printedLinesOf (t :: ts) hchildren
    rw [printedLines_node (List.cons_ne_nil t ts), List.forall_mem_cons, List.forall_mem_append,
      List.forall_mem_map, List.forall_mem_singleton]
    have hopening : IsPlain ['_', '['] := ⟨by decide, by decide, by decide⟩
    have hclosing : IsPlain [']'] := ⟨by decide, by decide, by decide⟩
    have hspaces : '\n' ∉ [' ', ' '] := by decide
    exact ⟨hopening.append (IsField.isPlain hroot).2.1, fun l hl => (hlines l hl).append hspaces,
      hclosing⟩

theorem isPlain_of_mem_printedLinesOf (ts : List Tree) (h : All HasFieldRoot ts) :
    ∀ l ∈ printedLinesOf ts, IsPlain l := by
  match ts with
  | [] => exact List.forall_mem_nil _
  | t :: ts =>
    obtain ⟨ht, hts⟩ := all_cons_iff.1 h
    rw [printedLinesOf, List.forall_mem_append]
    exact ⟨isPlain_of_mem_printedLines t ht, isPlain_of_mem_printedLinesOf ts hts⟩

end

mutual

/-- The lines of the written form of a tree. -/
theorem lineLists_text (t : Tree) (h : All HasFieldRoot [t]) :
    lineLists t.text.toList = t.printedLines := by
  match t with
  | node n [] =>
    obtain ⟨hne, hnewline, -⟩ := IsField.isPlain (all_singleton_iff.1 h).1
    rw [text, List.isEmpty_nil, if_pos rfl, printedLines_leaf]
    exact lineLists_of_not_mem hne hnewline
  | node n (t :: ts) =>
    have hplain := isPlain_of_mem_printedLines _ h
    rw [printedLines_node (List.cons_ne_nil t ts)] at hplain ⊢
    rw [← lineLists_append_flatMap hplain, List.flatMap_append, List.flatMap_map,
      ← toList_textOf (t :: ts) (all_singleton_iff.1 h).2, text]
    simp

theorem toList_textOf (ts : List Tree) (h : All HasFieldRoot ts) :
    (textOf ts).toList = (printedLinesOf ts).flatMap fun l => '\n' :: indented l := by
  match ts with
  | [] =>
    rw [textOf, printedLinesOf]
    rfl
  | t :: ts =>
    obtain ⟨ht, hts⟩ := all_cons_iff.1 h
    rw [textOf, printedLinesOf, String.toList_append, toList_textOf ts hts, String.toList_join,
      lines, lineLists_text t ht, List.map_map, List.flatMap_map, List.flatMap_append]
    simp [indented]

end

/-! ### Trees that look alike -/

/-- Holds of two trees of the same shape whose nodes are written alike at all addresses. -/
def LooksLike (t u : Tree) : Prop :=
  ∀ p, (t.subtree? p).map (·.root.text) = (u.subtree? p).map (·.root.text)

/-- Two trees look alike if their roots are written alike and their children look alike. -/
theorem LooksLike.node {n m : Node} {ts us : List Tree} (hroot : n.text = m.text)
    (hchildren : List.Forall₂ LooksLike ts us) : LooksLike (node n ts) (node m us) := by
  intro p
  cases p with
  | nil => exact congrArg some hroot
  | cons i p =>
    rw [subtree?_cons, subtree?_cons]
    induction hchildren generalizing i with
    | nil => rfl
    | cons h _ ih =>
      cases i with
      | zero => exact h p
      | succ i => exact ih i

/-! ### Reading -/

/-- Holds of lines the first of which, if there is one, is not indented. -/
def AtMargin (ls : List (List Char)) : Prop :=
  ∀ l ∈ ls.head?, l.head? ≠ some ' '

private theorem head?_ne_space {f l : List Char} (hf : Text.IsField f) :
    (f ++ l).head? ≠ some ' ' := by
  obtain ⟨hne, hblank⟩ := hf
  obtain ⟨c, f, rfl⟩ := List.exists_cons_of_ne_nil hne
  rintro ⟨⟩
  exact absurd (hblank _ List.mem_cons_self) (by decide)

theorem exists_printedLines_eq_cons {t : Tree} (h : t.HasFieldRoot) :
    ∃ l ls, t.printedLines = l :: ls ∧ l.head? ≠ some ' ' := by
  obtain ⟨n, ts⟩ := t
  by_cases hts : ts = []
  · subst hts
    refine ⟨_, _, printedLines_leaf n, ?_⟩
    rw [← List.append_nil n.text.toList]
    exact head?_ne_space h
  · exact ⟨_, _, printedLines_node hts n, head?_ne_space h⟩

theorem atMargin_printedLinesOf {ts : List Tree} (h : All HasFieldRoot ts) :
    AtMargin (printedLinesOf ts) := by
  cases ts with
  | nil =>
    intro l hl
    cases hl
  | cons t ts =>
    obtain ⟨l, ls, hlines, hl⟩ :=
      exists_printedLines_eq_cons (all_singleton_iff.1 (all_cons_iff.1 h).1).1
    rw [printedLinesOf, hlines]
    rintro l' ⟨⟩
    exact hl

/-- The lines of children are told from the closing bracket, which is not indented. -/
private theorem map_indented_append_inj {ls ls' rest rest' : List (List Char)}
    (h : ls.map indented ++ [']'] :: rest = ls'.map indented ++ [']'] :: rest') :
    ls = ls' ∧ rest = rest' := by
  induction ls generalizing ls' with
  | nil =>
    cases ls' with
    | nil => exact ⟨rfl, (List.cons.inj h).2⟩
    | cons l' ls' => exact absurd (List.cons.inj h).1 (by simp [indented])
  | cons l ls ih =>
    cases ls' with
    | nil => exact absurd (List.cons.inj h).1 (by simp [indented])
    | cons l' ls' =>
      obtain ⟨hl, hls⟩ := List.cons.inj h
      obtain ⟨rfl, hrest⟩ := ih hls
      simp only [indented, List.cons.injEq, true_and] at hl
      exact ⟨congrArg (· :: ls) hl, hrest⟩

/-- The line of a leaf is told from the line of an inner node by what follows: nothing that is
indented follows a leaf. -/
private theorem leaf_ne_node {n m : Node} {us : List Tree} {rest rest' : List (List Char)}
    (hus : us ≠ []) (h : All HasFieldRoot us) (hrest : AtMargin rest) :
    (node n []).printedLines ++ rest ≠ (node m us).printedLines ++ rest' := by
  intro heq
  obtain ⟨u, us, rfl⟩ := List.exists_cons_of_ne_nil hus
  obtain ⟨l, ls, hlines, -⟩ :=
    exists_printedLines_eq_cons (all_singleton_iff.1 (all_cons_iff.1 h).1).1
  rw [printedLines_leaf, printedLines_node hus, printedLinesOf, hlines] at heq
  obtain ⟨-, rfl⟩ := List.cons.inj heq
  exact hrest _ rfl rfl

mutual

/-- **The lines of a tree tell where they end.** Two trees whose nodes are written as fields look
alike if their lines, with more lines behind them, are the same; and then the lines behind are
also the same. -/
theorem printedLines_append_inj (t u : Tree) {rest rest' : List (List Char)}
    (ht : All HasFieldRoot [t]) (hu : All HasFieldRoot [u]) (hrest : AtMargin rest)
    (hrest' : AtMargin rest') (h : t.printedLines ++ rest = u.printedLines ++ rest') :
    t.LooksLike u ∧ rest = rest' := by
  obtain ⟨m, us⟩ := u
  obtain ⟨-, hus⟩ := all_singleton_iff.1 hu
  match t with
  | node n [] =>
    by_cases hleaf : us = []
    · subst hleaf
      rw [printedLines_leaf, printedLines_leaf] at h
      obtain ⟨htext, hrests⟩ := List.cons.inj h
      exact ⟨.node (String.toList_injective htext) .nil, hrests⟩
    · exact absurd h (leaf_ne_node hleaf hus hrest)
  | node n (t :: ts) =>
    obtain ⟨-, hts⟩ := all_singleton_iff.1 ht
    have hne : t :: ts ≠ [] := List.cons_ne_nil t ts
    by_cases hleaf : us = []
    · subst hleaf
      exact absurd h.symm (leaf_ne_node hne hts hrest')
    · rw [printedLines_node hne, printedLines_node hleaf, List.cons_append, List.cons_append,
        List.append_assoc, List.append_assoc] at h
      obtain ⟨htext, hlines⟩ := List.cons.inj h
      obtain ⟨hchildren, hrests⟩ := map_indented_append_inj hlines
      exact ⟨.node (String.toList_injective (List.append_cancel_right htext))
        (printedLinesOf_inj (t :: ts) us hts hus hchildren), hrests⟩

/-- Several trees whose nodes are written as fields look alike if their lines are the same. -/
theorem printedLinesOf_inj (ts us : List Tree) (hts : All HasFieldRoot ts)
    (hus : All HasFieldRoot us) (h : printedLinesOf ts = printedLinesOf us) :
    List.Forall₂ LooksLike ts us := by
  match ts, us with
  | [], [] => exact .nil
  | [], u :: us =>
    obtain ⟨l, ls, hlines, -⟩ :=
      exists_printedLines_eq_cons (all_singleton_iff.1 (all_cons_iff.1 hus).1).1
    rw [printedLinesOf, printedLinesOf, hlines] at h
    cases h
  | t :: ts, [] =>
    obtain ⟨l, ls, hlines, -⟩ :=
      exists_printedLines_eq_cons (all_singleton_iff.1 (all_cons_iff.1 hts).1).1
    rw [printedLinesOf, printedLinesOf, hlines] at h
    cases h
  | t :: ts, u :: us =>
    obtain ⟨ht, hts⟩ := all_cons_iff.1 hts
    obtain ⟨hu, hus⟩ := all_cons_iff.1 hus
    -- The lines of the further trees begin at the margin, so the first trees end in one place.
    obtain ⟨hlooks, hlines⟩ := printedLines_append_inj t u ht hu (atMargin_printedLinesOf hts)
      (atMargin_printedLinesOf hus) h
    exact .cons hlooks (printedLinesOf_inj ts us hts hus hlines)

end

/-! ### Written forms -/

theorem LooksLike.of_node {n m : Node} {ts us : List Tree}
    (h : LooksLike (Tree.node n ts) (Tree.node m us)) :
    n.text = m.text ∧ List.Forall₂ LooksLike ts us := by
  refine ⟨Option.some.inj (h []), ?_⟩
  replace h : ∀ (i : Nat) (p : List Nat),
      (ts[i]?.bind (subtree? · p)).map (·.root.text) =
        (us[i]?.bind (subtree? · p)).map (·.root.text) := fun i p => h (i :: p)
  induction ts generalizing us with
  | nil =>
    cases us with
    | nil => exact .nil
    | cons u us => cases h 0 []
  | cons t ts ih =>
    cases us with
    | nil => cases h 0 []
    | cons u us => exact .cons (h 0) (ih fun i => h (i + 1))

mutual

theorem LooksLike.text_eq (t u : Tree) (h : t.LooksLike u) : t.text = u.text := by
  match t, u with
  | .node n ts, .node m us =>
    obtain ⟨hroot, hchildren⟩ := h.of_node
    have hleaf : ts.isEmpty = us.isEmpty := by cases hchildren <;> rfl
    rw [text, text, hroot, hleaf, textOf_eq_of_looksLike ts us hchildren]

theorem textOf_eq_of_looksLike (ts us : List Tree) (h : List.Forall₂ LooksLike ts us) :
    textOf ts = textOf us := by
  match ts, us with
  | [], [] => rfl
  | t :: ts, u :: us =>
    obtain ⟨ht, hts⟩ := List.forall₂_cons.1 h
    rw [textOf, textOf, LooksLike.text_eq t u ht, textOf_eq_of_looksLike ts us hts]

end

/-- **The written form determines the tree.** Of two trees whose nodes are all written with
something and without blanks, the written forms are equal exactly if the trees have nodes at the
same addresses and at each of them the nodes are written alike. -/
theorem text_eq_iff {t u : Tree} (ht : ∀ v ∈ t.subtrees, Text.IsField v.root.text.toList)
    (hu : ∀ v ∈ u.subtrees, Text.IsField v.root.text.toList) :
    t.text = u.text ↔
      ∀ p, (t.subtree? p).map (·.root.text) = (u.subtree? p).map (·.root.text) := by
  have hall {t : Tree} (h : ∀ v ∈ t.subtrees, Text.IsField v.root.text.toList) :
      All HasFieldRoot [t] := by
    rw [All, subtreesOf, subtreesOf, List.append_nil]
    exact h
  refine ⟨fun h => ?_, LooksLike.text_eq t u⟩
  have hlines : t.printedLines ++ [] = u.printedLines ++ [] := by
    rw [← lineLists_text t (hall ht), ← lineLists_text u (hall hu), h]
  have hmargin : AtMargin [] := fun l hl => by cases hl
  exact (printedLines_append_inj t u (hall ht) (hall hu) hmargin hmargin hlines).1

/-- A tree whose labels look like brackets, and one that is written alike although a form is part
of a label there and the identifiers are others. -/
theorem text_eq_iff_of_brackets :
    let t := node ⟨"a", none, false, none⟩
      [node ⟨"b_[", none, true, none⟩ [], node ⟨"]", some ⟨"x", []⟩, false, none⟩ [],
        node ⟨"_[", none, false, none⟩ [node ⟨"]", none, false, none⟩ []]]
    let u := node ⟨"a", none, false, some "7.0"⟩
      [node ⟨"+b_[", none, false, none⟩ [], node ⟨"](x)", none, false, none⟩ [],
        node ⟨"_[", none, false, none⟩ [node ⟨"]", none, false, none⟩ []]]
    (∀ v ∈ t.subtrees, Text.IsField v.root.text.toList) ∧
      (∀ v ∈ u.subtrees, Text.IsField v.root.text.toList) ∧ t.text = u.text ∧
      (t.subtree? [2, 0]).map (·.root.text) = (u.subtree? [2, 0]).map (·.root.text) := by
  intro t u
  have ht : ∀ v ∈ t.subtrees, Text.IsField v.root.text.toList := by decide +kernel
  have hu : ∀ v ∈ u.subtrees, Text.IsField v.root.text.toList := by decide +kernel
  have htext : t.text = u.text := by decide +kernel
  exact ⟨ht, hu, htext, (text_eq_iff ht hu).1 htext [2, 0]⟩

end Tree

end Chunker
