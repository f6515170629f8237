import Chunker.Grammar

/-!
# The shape of what is read

Whatever text a grammar has, its statements are built from names and conditions. Every category
of a statement begins with a letter and goes on with letters, digits and hyphens, perhaps with a
star at the end. A condition has its brackets, and behind a reference there is a file. A rule has
at least one production, a production at least one element, and at most one of its elements is
marked as the governor.

## Main definitions

* `Grammar.IsName`, `Grammar.IsDirectiveName` : the shapes of names.
* `Grammar.IsLiteral`, `Grammar.IsReference` : the shapes of conditions.
* `Grammar.Statement.Valid` : the shape of what is read.
* `Grammar.Statement.WellFormed` : the part of it that speaks of names.

## Main results

* `Grammar.readStatements_valid` : all statements of a text have this shape.
-/

namespace Chunker.Grammar

/-! ### Names -/

/-- The shape of a category: a letter, then letters, digits and hyphens, and perhaps a star. -/
def IsName (s : List Char) : Prop :=
  ∃ c cs, beginsName c ∧ (∀ x ∈ cs, continuesName x) ∧ (s = c :: cs ∨ s = c :: cs ++ ['*'])

theorem isName_of_category? {s t rest : List Char} (h : category? s = some (t, rest)) :
    IsName t := by
  unfold category? at h
  split at h
  · cases h
  · rename_i c cs
    split at h
    · rename_i hc
      have hcs : ∀ x ∈ cs.takeWhile continuesName, continuesName x := fun x hx =>
        List.all_eq_true.1 List.all_takeWhile x hx
      split at h
      · obtain ⟨rfl, -⟩ := Prod.mk.inj (Option.some.inj h)
        exact ⟨c, _, hc, hcs, .inr rfl⟩
      · obtain ⟨rfl, -⟩ := Prod.mk.inj (Option.some.inj h)
        exact ⟨c, _, hc, hcs, .inl rfl⟩
    · cases h

theorem IsName.head? {s : List Char} (h : IsName s) : ∃ c, s.head? = some c ∧ beginsName c := by
  obtain ⟨c, cs, hc, -, rfl | rfl⟩ := h <;> exact ⟨c, rfl, hc⟩

theorem IsName.ne_empty {c : Category} (h : IsName c.toList) : c ≠ "" := by
  obtain ⟨x, hx, -⟩ := h.head?
  rintro rfl
  cases hx

theorem continuesName_of_beginsName {c : Char} (h : beginsName c) : continuesName c := by
  simp_all [beginsName, continuesName, Char.isAlphanum]

theorem IsName.continuesName_or_eq_star {s : List Char} (h : IsName s) :
    ∀ x ∈ s, continuesName x ∨ x = '*' := by
  obtain ⟨c, cs, hc, hcs, hs⟩ := h
  have hletters : ∀ x ∈ c :: cs, continuesName x :=
    List.forall_mem_cons.2 ⟨continuesName_of_beginsName hc, hcs⟩
  rcases hs with rfl | rfl
  · exact fun x hx => .inl (hletters x hx)
  · exact fun x hx => (List.mem_append.1 hx).imp (hletters x) List.mem_singleton.1

theorem IsName.not_opensCondition {s : List Char} (h : IsName s) :
    ∀ x ∈ s, Category.opensCondition x = false := by
  intro x hx
  refine Bool.eq_false_iff.2 fun hopens => ?_
  simp only [Category.opensCondition, Bool.or_eq_true, beq_iff_eq] at hopens
  have hname := h.continuesName_or_eq_star x hx
  rcases hopens with rfl | rfl <;> exact absurd hname (by decide)

theorem IsName.newline_not_mem {s : List Char} (h : IsName s) : '\n' ∉ s := fun hmem =>
  absurd (h.continuesName_or_eq_star _ hmem) (by decide)

/-- The shape of the name of a directive: `@` and capital letters. -/
def IsDirectiveName (t : List Char) : Prop :=
  ∃ cs, cs ≠ [] ∧ (∀ x ∈ cs, x.isUpper) ∧ t = '@' :: cs

theorem isDirectiveName_of_directiveName? {s t rest : List Char}
    (h : directiveName? s = some (t, rest)) : IsDirectiveName t := by
  unfold directiveName? at h
  split at h
  · split at h
    · cases h
    · rename_i cs hne
      obtain ⟨rfl, -⟩ := Prod.mk.inj (Option.some.inj h)
      exact ⟨_, hne, fun x hx => List.all_eq_true.1 List.all_takeWhile x hx, rfl⟩
  · cases h

theorem isDirectiveName_start : IsDirectiveName "@START".toList :=
  isDirectiveName_of_directiveName? (s := "@START".toList) rfl

/-! ### Conditions -/

/-- The shape of a literal condition: admitted characters between the brackets of a kind. -/
def IsLiteral (t : List Char) : Prop :=
  ∃ (k : ConditionKind) (body : List Char), body ≠ [] ∧ (∀ x ∈ body, k.admits x) ∧
    t = k.opening :: body ++ [k.closing]

/-- The shape of the drive of a path: a letter and a colon, or nothing. -/
def IsDrive (drive : List Char) : Prop :=
  drive = [] ∨ ∃ c : Char, c.isAlpha ∧ drive = [c, ':']

/-- The shape of a reference: a path, perhaps with a drive, between quotes between brackets. -/
def IsReference (t : List Char) : Prop :=
  ∃ (k : ConditionKind) (drive body : List Char), IsDrive drive ∧ body ≠ [] ∧
    (∀ x ∈ body, inPath x) ∧ t = k.opening :: '"' :: drive ++ body ++ ['"', k.closing]

private theorem isDrive_splitDrive (s : List Char) : IsDrive (splitDrive s).1 := by
  unfold splitDrive
  split
  · split
    · exact .inr ⟨_, ‹_›, rfl⟩
    · exact .inl rfl
  · exact .inl rfl

theorem isLiteral_of_literal? {k : ConditionKind} {s t rest : List Char}
    (h : literal? k s = some (t, rest)) : IsLiteral t := by
  unfold literal? at h
  split at h
  · cases h
  · rename_i c cs
    split at h
    · rename_i hc
      split at h
      · cases h
      · cases h
      · rename_i hne
        split at h
        · rename_i hd
          obtain ⟨rfl, -⟩ := Prod.mk.inj (Option.some.inj h)
          refine ⟨k, _, hne, fun x hx => ?_, by rw [hc, hd]⟩
          exact List.all_eq_true.1 List.all_takeWhile x hx
        · cases h
    · cases h

theorem isReference_of_reference? {k : ConditionKind} {s t rest : List Char}
    (h : reference? k s = some (t, rest)) : IsReference t := by
  unfold reference? at h
  split at h
  · rename_i c cs
    split at h
    · rename_i hc
      split at h
      · cases h
      · rename_i hne
        split at h
        · rename_i hd
          obtain ⟨rfl, -⟩ := Prod.mk.inj (Option.some.inj h)
          refine ⟨k, _, _, isDrive_splitDrive cs, hne, fun x hx => ?_, by rw [hc, hd]⟩
          exact List.all_eq_true.1 List.all_takeWhile x hx
        · cases h
      · cases h
    · cases h
  · cases h

/-! ### Statements -/

/-- The shape of a condition, and a file behind every reference. -/
def Condition.Valid (listing : Listing) : Condition → Prop
  | absent => True
  | literal text => IsLiteral text.toList
  | listed reference entries => IsReference reference.toList ∧ listing reference = .ok entries

/-- The shape of an element. -/
def Element.Valid (listing : Listing) (e : Element) : Prop :=
  IsName e.category.toList ∧ e.condition.Valid listing

/-- The shape of a production: at least one element, at most one of them marked. -/
def Production.Valid (listing : Listing) (p : Production) : Prop :=
  p ≠ [] ∧ (∀ e ∈ p, e.Valid listing) ∧ p.countP Element.governs ≤ 1

/-- The shape of a statement. -/
def Statement.Valid (listing : Listing) : Statement → Prop
  | .rules head ps => IsName head.toList ∧ ps ≠ [] ∧ ∀ p ∈ ps, Production.Valid listing p
  | .directive name cs => IsDirectiveName name.toList ∧ ∀ c ∈ cs, IsName c.toList

/-- The shape of a production as far as names go. -/
def Production.WellFormed (p : Production) : Prop :=
  p ≠ [] ∧ ∀ e ∈ p, IsName e.category.toList

/-- The shape of a statement as far as names go. -/
def Statement.WellFormed : Statement → Prop
  | .rules head ps => IsName head.toList ∧ ∀ p ∈ ps, Production.WellFormed p
  | .directive _ cs => ∀ c ∈ cs, IsName c.toList

theorem Statement.Valid.wellFormed {listing : Listing} {st : Statement} (h : st.Valid listing) :
    st.WellFormed := by
  cases st with
  | rules head ps =>
    exact ⟨h.1, fun p hp => ⟨(h.2.2 p hp).1, fun e he => ((h.2.2 p hp).2.1 e he).1⟩⟩
  | directive name cs => exact h.2

section Reading

variable {listing : Listing} {head : Category} {s rest : List Char}

/-- What is found where a condition may stand: nothing, a literal condition or a reference, which
are taken off the text. -/
theorem findCondition_cases (s : List Char) :
    findCondition s = (.absent, s) ∨
      (∃ t rest, findCondition s = (.literal t, rest) ∧ s = t ++ rest ∧ IsLiteral t) ∨
        ∃ t rest, findCondition s = (.reference t, rest) ∧ s = t ++ rest ∧ IsReference t := by
  unfold findCondition
  split
  · rename_i h
    exact .inr (.inr ⟨_, _, rfl, (reference?_eq_append h).1, isReference_of_reference? h⟩)
  · split
    · rename_i h
      exact .inr (.inr ⟨_, _, rfl, (reference?_eq_append h).1, isReference_of_reference? h⟩)
    · split
      · rename_i h
        exact .inr (.inl ⟨_, _, rfl, (literal?_eq_append h).1, isLiteral_of_literal? h⟩)
      · split
        · rename_i h
          exact .inr (.inl ⟨_, _, rfl, (literal?_eq_append h).1, isLiteral_of_literal? h⟩)
        · exact .inl rfl

/-- The condition that is found, with the entries of its file, has the shape of a condition. -/
theorem valid_of_resolve {c : Condition}
    (h : resolve listing (findCondition s).1 = .ok c) : c.Valid listing := by
  rcases findCondition_cases s with hf | ⟨t, _, hf, -, ht⟩ | ⟨t, _, hf, -, ht⟩ <;>
    rw [hf, resolve] at h
  · obtain rfl := Except.ok.inj h
    trivial
  · obtain rfl := Except.ok.inj h
    rwa [Condition.Valid, String.toList_ofList]
  · split at h
    · cases h
    · rename_i entries hentries
      obtain rfl := Except.ok.inj h
      exact ⟨by rwa [String.toList_ofList], hentries⟩

theorem valid_of_readElement {e : Element} (h : readElement listing head s = .ok (e, rest)) :
    e.Valid listing := by
  unfold readElement at h
  split at h
  · cases h
  · rename_i name r hname
    split at h
    · cases h
    · rename_i hresolve
      obtain ⟨rfl, -⟩ := Prod.mk.inj (Except.ok.inj h)
      refine ⟨?_, valid_of_resolve hresolve⟩
      rw [String.toList_ofList]
      exact isName_of_category? hname

/-- A production that is read has at most one mark, counting the one it may have had already. -/
private theorem valid_of_readProductions_from {governed : Bool} {ps : List Production}
    (h : readProductions listing head governed s = .ok (ps, rest)) :
    ∃ p qs, ps = p :: qs ∧ p ≠ [] ∧ (∀ e ∈ p, e.Valid listing) ∧
      p.countP Element.governs + governed.toNat ≤ 1 ∧ ∀ q ∈ qs, Production.Valid listing q := by
  -- What one element adds to the marks before it.
  have hadd {governed : Bool} {e : Element} (hgov : ¬(governed && e.governs) = true)
      (p : Production) (hp : p.countP Element.governs + (governed || e.governs).toNat ≤ 1) :
      (e :: p).countP Element.governs + governed.toNat ≤ 1 := by
    rw [List.countP_cons]
    cases governed <;> cases he : e.governs <;> simp_all
  have hone {governed : Bool} {e : Element} (hgov : ¬(governed && e.governs) = true) :
      [e].countP Element.governs + governed.toNat ≤ 1 :=
    hadd hgov [] (by cases governed <;> cases e.governs <;> simp)
  fun_induction readProductions listing head governed s generalizing ps rest with
  | case1 => cases h
  | case2 => cases h
  | case3 => cases h
  | case4 governed _ e _ he hgov _ _ ps' _ hps ih =>
    obtain ⟨rfl, -⟩ := Prod.mk.inj (Except.ok.inj h)
    obtain ⟨p, qs, rfl, -, helements, hmarks, hqs⟩ := ih hps
    exact ⟨e :: p, qs, rfl, List.cons_ne_nil e p,
      List.forall_mem_cons.2 ⟨valid_of_readElement he, helements⟩, hadd hgov p hmarks, hqs⟩
  | case5 => cases h
  | case6 governed _ e _ he hgov _ _ ps' _ hps ih =>
    obtain ⟨rfl, -⟩ := Prod.mk.inj (Except.ok.inj h)
    obtain ⟨p, qs, rfl, hne, helements, hmarks, hqs⟩ := ih hps
    exact ⟨[e], p :: qs, rfl, List.cons_ne_nil e [],
      List.forall_mem_singleton.2 (valid_of_readElement he), hone hgov,
      List.forall_mem_cons.2 ⟨⟨hne, helements, hmarks⟩, hqs⟩⟩
  | case7 governed _ e _ he hgov =>
    obtain ⟨rfl, -⟩ := Prod.mk.inj (Except.ok.inj h)
    exact ⟨[e], [], rfl, List.cons_ne_nil e [],
      List.forall_mem_singleton.2 (valid_of_readElement he), hone hgov,
      fun q hq => absurd hq List.not_mem_nil⟩
  | case8 => cases h

theorem valid_of_readProductions {ps : List Production}
    (h : readProductions listing head false s = .ok (ps, rest)) :
    ps ≠ [] ∧ ∀ p ∈ ps, Production.Valid listing p := by
  obtain ⟨p, qs, rfl, hne, helements, hmarks, hqs⟩ := valid_of_readProductions_from h
  exact ⟨List.cons_ne_nil p qs, List.forall_mem_cons.2 ⟨⟨hne, helements, hmarks⟩, hqs⟩⟩

theorem isName_of_readCategories {name : String} {cs : List Category}
    (h : readCategories name s = .ok (cs, rest)) : ∀ c ∈ cs, IsName c.toList := by
  fun_induction readCategories name s generalizing cs rest with
  | case1 =>
    obtain ⟨rfl, -⟩ := Prod.mk.inj (Except.ok.inj h)
    exact fun c hc => absurd hc List.not_mem_nil
  | case2 => cases h
  | case3 => cases h
  | case4 _ _ _ _ _ hcs _ hname ih =>
    obtain ⟨rfl, -⟩ := Prod.mk.inj (Except.ok.inj h)
    intro x hx
    rcases List.mem_cons.1 hx with rfl | hx
    · rw [String.toList_ofList]
      exact isName_of_category? hname
    · exact ih hcs x hx

theorem valid_of_readStatement {st : Statement}
    (h : readStatement listing s = .ok (st, rest)) : st.Valid listing := by
  unfold readStatement at h
  split at h
  · unfold readDirective at h
    split at h
    · cases h
    · rename_i hname
      split at h
      · cases h
      · rename_i hcs
        obtain ⟨rfl, -⟩ := Prod.mk.inj (Except.ok.inj h)
        refine ⟨?_, isName_of_readCategories hcs⟩
        rw [String.toList_ofList]
        exact isDirectiveName_of_directiveName? hname
  · unfold readRules at h
    split at h
    · cases h
    · rename_i hname
      split at h
      · cases h
      · split at h
        · cases h
        · rename_i hps
          obtain ⟨rfl, -⟩ := Prod.mk.inj (Except.ok.inj h)
          refine ⟨?_, valid_of_readProductions hps⟩
          rw [String.toList_ofList]
          exact isName_of_category? hname

end Reading

/-- All statements of a text have the shape of statements. -/
theorem readStatements_valid (listing : Listing) (s : List Char) :
    ∀ st ∈ (readStatements listing s).statements, st.Valid listing := by
  fun_induction readStatements listing s with
  | case1 => exact fun st h => absurd h List.not_mem_nil
  | case2 => exact fun st h => absurd h List.not_mem_nil
  | case3 s _ st rest hread following ih =>
    exact List.forall_mem_cons.2 ⟨valid_of_readStatement hread, ih⟩

theorem readStatements_wellFormed (listing : Listing) (s : List Char) :
    ∀ st ∈ (readStatements listing s).statements, st.WellFormed := fun st hst =>
  (readStatements_valid listing s st hst).wellFormed

end Chunker.Grammar
