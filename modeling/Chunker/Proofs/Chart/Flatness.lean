import Chunker.Proofs.Chart.Search

/-!
# Flat categories in extracted trees

A flat category is left out of a tree below a node of the same name. Whether a part is left out is
decided once, for each pattern of the edge that a node is made by. What comes up out of a part that
is left out was placed below that part before, and is not looked at again. So a node for a flat
category has no child of its own name among its parts, nor among what flat parts of its name leave
to it; but it has one if some part of another name, which is hidden or for the root only, leaves it
one.

## Main definitions

* `Chart.Brings` : the labels of the children that a category in a cell gives to its node.
* `Chart.ComesBack` : the flat categories that come up again below themselves.

## Main results

* `Chart.Finds.mem_labels_iff` : the labels right below the root of a tree that is found.
* `Chart.Finds.all_subtrees` : every subtree of a tree that is found is found itself.
* `Chart.nested_flat_of_extract` : when a flat category is nested directly in a tree.
* `Chart.exists_nested_flat` : a tree in which one is.
-/

namespace Chunker

open Relation

/-! ### Labels of children -/

theorem RuleSet.leavesOut_self {g : RuleSet} {x : Category} (hflat : g.isFlat x) :
    g.leavesOut x x := by
  simp [leavesOut, hflat]

theorem RuleSet.leavesOut_of_ne {g : RuleSet} {x y : Category} (hne : y ≠ x) :
    g.leavesOut x y = (g.isHidden y || g.isOnlyTop y) := by
  simp [leavesOut, hne]

theorem RuleSet.map_label_place (g : RuleSet) (parent : Category) (governs : Bool) (t : Tree) :
    (g.place parent governs t).map Tree.label =
      if g.leavesOut parent t.label then t.children.map Tree.label else [t.label] := by
  rw [place]
  split
  · split
    · rfl
    · rw [List.map_map]
      rfl
  · rfl

theorem Derivation.map_label_childrenFrom (g : RuleSet) (parent : Category)
    (governor : Option Nat) (ds : List Derivation) (i : Nat) :
    (childrenFrom g parent governor i ds).map Tree.label = ds.flatMap fun d =>
      if g.leavesOut parent d.label then (d.tree g).children.map Tree.label else [d.label] := by
  induction ds generalizing i with
  | nil => rw [childrenFrom]; rfl
  | cons d ds ih =>
    rw [childrenFrom, List.map_append, RuleSet.map_label_place, ih, label_tree, List.flatMap_cons]

theorem Derivation.markHead_tree (g : RuleSet) (d : Derivation) :
    (d.tree g).markHead false = d.tree g := by
  cases d <;> rw [tree] <;> rfl

namespace Chart

variable {g : RuleSet} {chart : Chart} {c : Coord} {x z : Category} {d : Derivation}
  {v w : Category × Coord}

/-! ### What a category brings -/

/-- Holds of the label of a child that a category in a cell gives to its node: that of a part which
is kept, or a label that a part brings which is left out. -/
inductive Brings (g : RuleSet) (chart : Chart) : Category × Coord → Category → Prop
  | kept {v w : Category × Coord} (h : Asks g chart v w)
      (hout : g.leavesOut v.1 w.1 = false) : Brings g chart v w.1
  | broughtUp {v w : Category × Coord} {z : Category} (h : Asks g chart v w)
      (hout : g.leavesOut v.1 w.1) (hz : Brings g chart w z) : Brings g chart v z

/-- A category brings what one of its parts leaves to it. -/
theorem brings_iff :
    Brings g chart v z ↔ ∃ w, Asks g chart v w ∧
      if g.leavesOut v.1 w.1 then Brings g chart w z else z = w.1 := by
  constructor
  · rintro (⟨h, hout⟩ | ⟨h, hout, hz⟩)
    · exact ⟨_, h, by simp [hout]⟩
    · exact ⟨_, h, by simpa [hout] using hz⟩
  · rintro ⟨w, h, hw⟩
    split at hw
    · rename_i hout
      exact .broughtUp h hout hw
    · rename_i hout
      subst hw
      exact .kept h (Bool.eq_false_iff.2 hout)

/-- The search for a category of which every part is found goes on to all of them. -/
theorem asks_iff_of_made {e : Edge} {part : Category × Coord → Derivation}
    (hx : x = g.start ∨ x ∈ g.nonterminals) (he : chart.bestFor? g c x = some e)
    (hparts : ∀ p ∈ e.matched.zip e.backpath, Finds g chart p.2 p.1 (.ok (part p))) :
    Asks g chart (x, c) w ↔ w ∈ e.matched.zip e.backpath := by
  constructor
  · rintro ⟨-, he', hzip, -⟩
    obtain rfl := Option.some.inj (he.symm.trans he')
    exact hzip ▸ List.mem_append_right _ List.mem_cons_self
  · intro hw
    obtain ⟨before, after, hzip⟩ := List.append_of_mem hw
    exact .part hx he hzip fun p hp => hparts p (hzip ▸ List.mem_append_left _ hp)

namespace Finds

theorem label_eq (h : Finds g chart c x (.ok d)) : d.label = x := by
  cases h <;> rfl

/-- The labels right below the root of a tree that is found are those that its category brings. -/
theorem mem_labels_iff (h : Finds g chart c x (.ok d)) :
    z ∈ (d.tree g).children.map Tree.label ↔ Brings g chart (x, c) z := by
  generalize hr : Except.ok d = r at h
  induction h generalizing d z with
  | missing => cases hr
  | failed => cases hr
  | leaf hstart hx =>
    cases hr
    rw [Derivation.tree, Tree.children, List.map_nil, brings_iff]
    refine iff_of_false List.not_mem_nil ?_
    rintro ⟨w, ⟨hx', -, -, -⟩, -⟩
    exact absurd hx' (not_or.2 ⟨hstart, hx⟩)
  | @made c x e part hx he hparts ih =>
    cases hr
    rw [Derivation.tree, Tree.children, Derivation.map_label_childrenFrom, List.flatMap_map,
      List.mem_flatMap, brings_iff]
    refine exists_congr fun p => ?_
    rw [asks_iff_of_made hx he hparts]
    refine and_congr_right fun hp => ?_
    rw [(hparts p hp).label_eq]
    split
    · exact ih p hp rfl
    · exact List.mem_singleton

/-- Every subtree of a tree that is found is, up to the mark of its root, the tree that is found for
its label in a cell that the search comes to. -/
theorem all_subtrees (h : Finds g chart c x (.ok d)) :
    Tree.All (fun u => ∃ c' d' mark, ReflTransGen (Asks g chart) (x, c) (u.label, c') ∧
      Finds g chart c' u.label (.ok d') ∧ u = (d'.tree g).markHead mark) [d.tree g] := by
  have hroot (c : Coord) (x : Category) (d : Derivation) (h : Finds g chart c x (.ok d)) :
      ∃ c' d' mark, ReflTransGen (Asks g chart) (x, c) ((d.tree g).label, c') ∧
        Finds g chart c' (d.tree g).label (.ok d') ∧ d.tree g = (d'.tree g).markHead mark := by
    rw [Derivation.label_tree, h.label_eq]
    exact ⟨c, d, false, .refl, h, (d.markHead_tree g).symm⟩
  generalize hr : Except.ok d = r at h
  induction h generalizing d with
  | missing => cases hr
  | failed => cases hr
  | @leaf c x hstart hx =>
    cases hr
    refine Tree.all_singleton_iff.2 ⟨hroot c x _ (.leaf hstart hx), ?_⟩
    rw [Derivation.tree]
    exact Tree.all_nil
  | @made c x e part hx he hparts ih =>
    cases hr
    refine Tree.all_singleton_iff.2 ⟨hroot c x _ (.made hx he hparts), ?_⟩
    have hbelow (p : Category × Coord) (hp : p ∈ e.matched.zip e.backpath) :
        Tree.All (fun u => ∃ c' d' mark, ReflTransGen (Asks g chart) (x, c) (u.label, c') ∧
          Finds g chart c' u.label (.ok d') ∧ u = (d'.tree g).markHead mark)
          [(part p).tree g] := by
      intro u hu
      obtain ⟨c', d', mark, hreach, hfound, hu⟩ := ih p hp rfl u hu
      exact ⟨c', d', mark, hreach.head ((asks_iff_of_made hx he hparts).2 hp), hfound, hu⟩
    rw [Derivation.tree]
    refine Derivation.all_childrenFrom ?_ (List.forall_mem_map.2 fun p hp =>
      (Tree.all_singleton_iff.1 (hbelow p hp)).2) (List.forall_mem_map.2 fun p hp _ =>
      (Tree.all_singleton_iff.1 (hbelow p hp)).1) _ 0
    rintro u mark ⟨c', d', mark', hreach, hfound, rfl⟩
    exact ⟨c', d', mark, hreach, hfound, rfl⟩

end Finds

/-! ### Flat categories -/

/-- Holds of a category in a cell that comes up again below itself. Parts of its own name lead to a
part of another name, which is hidden or for the root only and brings the category. -/
def ComesBack (g : RuleSet) (chart : Chart) (x : Category) (c : Coord) : Prop :=
  ∃ d w, ReflTransGen (fun a b => Asks g chart (x, a) (x, b)) c d ∧ Asks g chart (x, d) w ∧
    w.1 ≠ x ∧ (g.isHidden w.1 ∨ g.isOnlyTop w.1) ∧ Brings g chart w x

/-- A flat category brings its own name if it comes up again below itself, and only then. -/
theorem brings_self_iff (hflat : g.isFlat x) : Brings g chart (x, c) x ↔ ComesBack g chart x c := by
  constructor
  · intro h
    generalize hv : (x, c) = v at h
    generalize hz : x = z at h
    induction h generalizing c with
    | kept h hout =>
      -- A part of the category's own name is not kept.
      subst hv hz
      cases (RuleSet.leavesOut_self hflat).symm.trans hout
    | @broughtUp v w z h hout hz' ih =>
      subst hv hz
      obtain ⟨y, d⟩ := w
      by_cases hy : y = x
      · subst hy
        obtain ⟨d', w, hreach, hw⟩ := ih rfl rfl
        exact ⟨d', w, hreach.head h, hw⟩
      · rw [RuleSet.leavesOut_of_ne hy, Bool.or_eq_true] at hout
        exact ⟨c, (y, d), .refl, h, hy, hout, hz'⟩
  · rintro ⟨d, w, hreach, hask, hne, hout, hw⟩
    induction hreach using ReflTransGen.head_induction_on with
    | refl =>
      refine .broughtUp hask ?_ hw
      rw [RuleSet.leavesOut_of_ne hne]
      simpa using hout
    | head hstep _ ih => exact .broughtUp hstep (RuleSet.leavesOut_self hflat) ih

/-- Where nothing else is hidden or for the root only, a category does not come up again below
itself. -/
theorem not_comesBack (h : ∀ y, y ∈ g.hidden ∨ y ∈ g.onlyTop → y = x) :
    ¬ ComesBack g chart x c := by
  rintro ⟨d, w, -, -, hne, hout, -⟩
  simp only [RuleSet.isHidden, RuleSet.isOnlyTop, decide_eq_true_eq] at hout
  exact hne (h w.1 hout)

/-- When a node for a flat category has a child of its own name. Every node of a tree that is
extracted from a cell of a chart is, up to its mark, the root of the tree that is found for its
label in a cell to which the search comes. If the label is flat, a child has it as well if and only
if the category comes up again below itself there: out of a part of another name, hidden or for the
root only, with none but flat parts of the label above it. So no child has it where no other
category is hidden or for the root only. -/
theorem nested_flat_of_extract {t : Tree} (h : (chart.extract g c).1 = .ok t) :
    ∀ u ∈ t.subtrees, u.label ∈ g.flat →
      (∃ d r mark, ReflTransGen (Asks g chart) (t.label, c) (u.label, d) ∧
        Finds g chart d u.label (.ok r) ∧ u = (r.tree g).markHead mark ∧
        ((∃ v ∈ u.children, v.label = u.label) ↔ ComesBack g chart u.label d)) ∧
      ((∀ y, y ∈ g.hidden ∨ y ∈ g.onlyTop → y = u.label) →
        ∀ v ∈ u.children, v.label ≠ u.label) := by
  intro u hu hflat
  obtain ⟨hfound, htree⟩ := finds_of_extract h
  have hall := hfound.all_subtrees
  rw [htree] at hall
  have hu : u ∈ Tree.subtreesOf [t] := by simpa [Tree.subtreesOf] using hu
  obtain ⟨d, r, mark, hreach, hr, hmark⟩ := hall u hu
  have hchildren : u.children = (r.tree g).children := by rw [hmark]; rfl
  have hnested : (∃ v ∈ u.children, v.label = u.label) ↔ ComesBack g chart u.label d := by
    rw [← brings_self_iff (decide_eq_true hflat), ← hr.mem_labels_iff, ← hchildren, List.mem_map]
  refine ⟨⟨d, r, mark, hreach, hr, hmark, hnested⟩, fun honly v hv hlabel => ?_⟩
  exact not_comesBack honly (hnested.1 ⟨v, hv, hlabel⟩)

/-- A hidden part below a flat part of the name of the root, with a further part of that name. -/
theorem nested_flat_of_extract_hidden_part :
    let g := RuleSet.ofText
      "np ==> +NN | +x | +np, RB . x ==> +np, VB . @HIDDEN x . @FLAT np . @START S ."
    let s : Sentence := ⟨"", [.tagged "cats" "cat" "NN", .tagged "sleep" "sleep" "VB",
      .tagged "soundly" "soundly" "RB"], []⟩
    let chart := parsed g s 0
    ∃ t, (chart.extract g ⟨2, 0⟩).1 = .ok t ∧ t.label ∈ g.flat ∧
      t.children.map Tree.label = [t.label, "VB", "RB"] ∧
      ∃ d, ReflTransGen (Asks g chart) (t.label, ⟨2, 0⟩) (t.label, d) ∧
        ComesBack g chart t.label d := by
  intro g s chart
  have hsome : (chart.extract g ⟨2, 0⟩).1.toOption.map
      (fun t => (t.label, t.children.map Tree.label)) = some ("np", ["np", "VB", "RB"]) := by
    decide +kernel
  obtain ⟨t, ht, hparts⟩ := exists_eq_ok_of_map_toOption hsome
  obtain ⟨hlabel, hchildren⟩ := Prod.mk.inj hparts
  have hflat : t.label ∈ g.flat := by
    rw [hlabel]
    decide +kernel
  have hroot : t ∈ t.subtrees := by
    obtain ⟨n, ts⟩ := t
    exact List.mem_cons_self
  obtain ⟨⟨d, r, mark, hreach, -, -, hnested⟩, -⟩ := nested_flat_of_extract ht t hroot hflat
  have hmem : t.label ∈ t.children.map Tree.label := by
    rw [hchildren, hlabel]
    exact List.mem_cons_self
  refine ⟨t, ht, hflat, ?_, d, hreach, hnested.1 (List.mem_map.1 hmem)⟩
  rw [hchildren, hlabel]

/-- A flat category that is nested directly: its only part is hidden and has a part of its name. -/
theorem exists_nested_flat :
    let g := RuleSet.ofText
      "np ==> +NN | +x . x ==> +np, VB . @HIDDEN x . @FLAT np . @START S ."
    let s : Sentence := ⟨"", [.tagged "cat" "cat" "NN", .tagged "sleeps" "sleep" "VB"], []⟩
    let chart := parsed g s 0
    g.Loaded ∧ (⟨1, 0⟩ : Coord).within s.size ∧
      ∃ t, (chart.extract g ⟨1, 0⟩).1 = .ok t ∧
        ∃ u ∈ t.subtrees, u.label ∈ g.flat ∧ ∃ v ∈ u.children, v.label = u.label := by
  intro g s chart
  have hsome : (chart.extract g ⟨1, 0⟩).1.toOption.map
      (fun t => decide (∃ u ∈ t.subtrees, u.label ∈ g.flat ∧
        u.label ∈ u.children.map Tree.label)) = some true := by decide +kernel
  obtain ⟨t, ht, hnested⟩ := exists_eq_ok_of_map_toOption hsome
  obtain ⟨u, hu, hflat, hmem⟩ := of_decide_eq_true hnested
  exact ⟨RuleSet.loaded_ofText (by decide +kernel), by decide, t, ht, u, hu, hflat,
    List.mem_map.1 hmem⟩

end Chart

end Chunker
