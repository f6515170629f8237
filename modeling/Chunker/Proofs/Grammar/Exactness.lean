import Chunker.Proofs.Grammar.Reading

/-!
# Whatever is read is a layout

Reading leaves nothing of a text out. If statements are read from a text without an error, then
the text is a layout of the tokens of these statements: between two tokens there is nothing but
gaps, and a name goes on as far as it can, so it does not run into the token behind it. Together
with the reading of layouts this says of every text what is read from it.

## Main results

* `Grammar.LaidOut.of_skipGap` : a token behind a gap, and a layout behind the token.
* `Grammar.laidOut_of_readStatement` : a statement that is read stands at the front of a layout.
* `Grammar.readStatements_eq_iff` : the statements of a text are those of which it is a layout.
-/

namespace Chunker.Grammar

variable {listing : Listing} {s t rest prev : List Char} {ts : List (List Char)}

/-! ### Where tokens end -/

/-- Whether a token runs into another is seen at the first character of the other. -/
private theorem runsInto_eq_any (t t' : List Char) :
    runsInto t t' = t'.head?.any fun c => runsInto t [c] := by
  cases h : t'.head? <;> by_cases hat : t.head? = some '@' <;> simp [runsInto, h, hat]

/-- A token that does not end like a name needs no gap behind it. -/
private theorem runsInto_eq_false_of_getLast? {c : Char} (hat : t.head? ≠ some '@')
    (hlast : t.getLast? = some c) (hc : continuesName c = false) (t' : List Char) :
    runsInto t t' = false := by
  rw [runsInto, if_neg hat]
  simp [hlast, hc]

private theorem head?_dropWhile {p : Char → Bool} (cs : List Char) :
    ∀ c ∈ (cs.dropWhile p).head?, p c = false := fun c hc => by
  have h := List.head?_dropWhile_not p cs
  rwa [hc] at h

/-- A category goes on as far as it can. -/
theorem runsInto_of_category? (h : category? s = some (t, rest)) :
    ∀ c ∈ rest.head?, runsInto t [c] = false := by
  intro c hc
  have hname := isName_of_category? h
  unfold category? at h
  split at h
  · cases h
  · rename_i x cs
    split at h
    · split at h
      · obtain ⟨rfl, rfl⟩ := Prod.mk.inj (Option.some.inj h)
        refine runsInto_eq_false_of_getLast? (fun hat => ?_) List.getLast?_concat (by decide) [c]
        obtain ⟨y, hy, hletter⟩ := hname.head?
        rw [hat] at hy
        obtain rfl := Option.some.inj hy
        cases hletter
      · obtain ⟨rfl, rfl⟩ := Prod.mk.inj (Option.some.inj h)
        have hcont : continuesName c = false := head?_dropWhile cs c hc
        exact runsInto_eq_false (by simpa using hcont) _
    · cases h

theorem runsInto_of_directiveName? (h : directiveName? s = some (t, rest)) :
    ∀ c ∈ rest.head?, runsInto t [c] = false := by
  intro c hc
  unfold directiveName? at h
  split at h
  · rename_i cs
    split at h
    · cases h
    · obtain ⟨rfl, rfl⟩ := Prod.mk.inj (Option.some.inj h)
      have hupper : c.isUpper = false := head?_dropWhile cs c hc
      simp [runsInto, hupper]
  · cases h

private theorem runsInto_of_bracket (k : ConditionKind) (body t' : List Char) :
    runsInto (k.opening :: body ++ [k.closing]) t' = false := by
  refine runsInto_eq_false_of_getLast? ?_ List.getLast?_concat ?_ t'
  · cases k <;> simp [ConditionKind.opening]
  · cases k <;> decide

theorem IsLiteral.runsInto_eq_false (h : IsLiteral t) (t' : List Char) : runsInto t t' = false := by
  obtain ⟨k, body, -, -, rfl⟩ := h
  exact runsInto_of_bracket k body t'

theorem IsReference.runsInto_eq_false (h : IsReference t) (t' : List Char) :
    runsInto t t' = false := by
  obtain ⟨k, drive, body, -, -, -, rfl⟩ := h
  simpa using runsInto_of_bracket k ('"' :: drive ++ body ++ ['"']) t'

/-! ### Layouts from the front -/

namespace LaidOut

/-- A layout stands behind any token that cannot run into it. -/
theorem behind (h : LaidOut prev ts s) (hs : ∀ c ∈ s.head?, runsInto t [c] = false) :
    LaidOut t ts s := by
  cases h with
  | nil h => exact .nil h
  | @cons _ gap t' s _ hgap _ h =>
    refine .cons hgap (fun hruns hnil => ?_) h
    rw [runsInto_eq_any, Option.any_eq_true] at hruns
    obtain ⟨c, hc, hruns⟩ := hruns
    obtain ⟨cs, rfl⟩ := List.head?_eq_some_iff.1 hc
    rw [hs c (by rw [hnil]; rfl)] at hruns
    cases hruns

/-- A token behind a gap, and a layout behind the token. -/
theorem of_skipGap (hskip : skipGap s = t ++ rest) (ht : t ≠ []) (h : LaidOut t ts rest) :
    LaidOut [] (t :: ts) s := by
  obtain ⟨gap, hs, hgap | ⟨-, hnil⟩⟩ := exists_gap s
  · rw [hs, hskip, ← List.append_assoc]
    exact .cons hgap (fun hruns => by cases hruns) h
  · rw [hskip] at hnil
    exact absurd (List.append_eq_nil_iff.1 hnil).1 ht

/-- A mark of one character behind a gap, and a layout behind it. -/
theorem mark_of_skipGap {c : Char} (hskip : skipGap s = c :: rest) (h : LaidOut [] ts rest)
    (hc : c ≠ '@' ∧ continuesName c = false) : LaidOut [] ([c] :: ts) s := by
  refine of_skipGap hskip (List.cons_ne_nil c []) (h.behind fun x _ => ?_)
  exact runsInto_eq_false_of_getLast? (by simpa using hc.1) rfl hc.2 [x]

/-- Where something is left behind a gap, the gap may be put in front of the layout. -/
theorem of_skipGap_self (hne : skipGap s ≠ []) (h : LaidOut [] ts (skipGap s)) :
    LaidOut [] ts s := by
  obtain ⟨gap, hs, hgap | ⟨-, hnil⟩⟩ := exists_gap s
  · by_cases hgapnil : gap = []
    · rwa [hs, hgapnil, List.nil_append]
    · rw [hs]
      exact h.gap hgap hgapnil
  · exact absurd hnil hne

end LaidOut

/-! ### Elements -/

private theorem skipGap_skipGapFrom (b : Bool) (s : List Char) :
    skipGap (skipGapFrom b s) = skipGapFrom b s := by
  induction s generalizing b with
  | nil => rfl
  | cons c cs ih =>
    rw [skipGapFrom]
    split
    · exact ih _
    · split
      · exact ih _
      · split
        · exact ih _
        · rename_i hblank hpercent
          simp [skipGap, skipGapFrom, hblank, hpercent]

private theorem skipGap_skipGap (s : List Char) : skipGap (skipGap s) = skipGap s :=
  skipGap_skipGapFrom false s

private theorem laidOut_of_resolve {c : Condition}
    (hc : resolve listing (findCondition (skipGap s)).1 = .ok c)
    (hne : (findCondition (skipGap s)).2 ≠ []) (h : LaidOut [] ts (findCondition (skipGap s)).2) :
    LaidOut [] (c.tokens ++ ts) s := by
  rcases findCondition_cases (skipGap s) with
    hf | ⟨t, rest, hf, hskip, ht⟩ | ⟨t, rest, hf, hskip, ht⟩ <;> rw [hf] at hc hne h
  · obtain rfl := Except.ok.inj hc
    exact .of_skipGap_self hne h
  · obtain rfl := Except.ok.inj hc
    rw [Condition.tokens, String.toList_ofList]
    exact .of_skipGap hskip ht.beginsToken.ne_nil (h.behind fun c _ => ht.runsInto_eq_false [c])
  · rw [resolve] at hc
    split at hc
    · cases hc
    · obtain rfl := Except.ok.inj hc
      rw [Condition.tokens, String.toList_ofList]
      exact .of_skipGap hskip ht.beginsToken.ne_nil (h.behind fun c _ => ht.runsInto_eq_false [c])

private theorem laidOut_of_takeMark (hskip : skipGap (takeMark (skipGap s)).2 = t ++ rest)
    (ht : t ≠ []) (h : LaidOut t ts rest) :
    LaidOut [] ((if (takeMark (skipGap s)).1 then [['+']] else []) ++ t :: ts) s := by
  generalize hs : skipGap s = s' at hskip ⊢
  unfold takeMark at hskip ⊢
  split at hskip
  · exact .mark_of_skipGap hs (.of_skipGap hskip ht h) (by decide)
  · rw [← hs, skipGap_skipGap] at hskip
    exact .of_skipGap hskip ht h

private theorem laidOut_of_readElement {head : Category} {e : Element}
    (hread : readElement listing head (skipGap s) = .ok (e, rest)) (hne : rest ≠ [])
    (h : LaidOut [] ts rest) : LaidOut [] (e.tokens ++ ts) s := by
  unfold readElement at hread
  split at hread
  · cases hread
  · rename_i name r hname
    split at hread
    · cases hread
    · rename_i condition hresolve
      obtain ⟨rfl, rfl⟩ := Prod.mk.inj (Except.ok.inj hread)
      obtain ⟨hskip, ht⟩ := category?_eq_append hname
      have hcondition := (laidOut_of_resolve hresolve hne h).behind (runsInto_of_category? hname)
      simpa [Element.tokens] using laidOut_of_takeMark hskip ht hcondition

/-! ### Statements -/

private theorem productionsTokens_consElement (e : Element) {p : Production} (hp : p ≠ [])
    (ps : List Production) :
    productionsTokens (consElement e (p :: ps)) =
      e.tokens ++ [','] :: productionsTokens (p :: ps) := by
  obtain ⟨e', p, rfl⟩ := List.exists_cons_of_ne_nil hp
  cases ps <;> simp [consElement, productionsTokens, Production.tokens]

/-- The productions of a rule that are read stand at the front of a layout. -/
private theorem laidOut_of_readProductions {head : Category} {governed : Bool}
    {ps : List Production} (hread : readProductions listing head governed s = .ok (ps, rest))
    (h : LaidOut [] ts rest) :
    (∃ p qs, ps = p :: qs ∧ p ≠ []) ∧ LaidOut [] (productionsTokens ps ++ ['.'] :: ts) s := by
  have helement {s r r' : List Char} {ts : List (List Char)} {e : Element} {c : Char}
      (hread : readElement listing head (skipGap s) = .ok (e, r)) (hskip : skipGap r = c :: r')
      (hc : c ≠ '@' ∧ continuesName c = false) (h : LaidOut [] ts r') :
      LaidOut [] (e.tokens ++ [c] :: ts) s := by
    refine laidOut_of_readElement hread (fun hnil => ?_) (.mark_of_skipGap hskip h hc)
    rw [hnil] at hskip
    cases hskip
  -- The first production has an element, so a comma can put another one in front of it.
  fun_induction readProductions listing head governed s generalizing ps rest with
  | case1 => cases hread
  | case2 => cases hread
  | case3 => cases hread
  | case4 governed s e r hr _ r' hskip ps' _ hps ih =>
    obtain ⟨rfl, rfl⟩ := Prod.mk.inj (Except.ok.inj hread)
    obtain ⟨⟨p, qs, rfl, hp⟩, hrest⟩ := ih hps h
    refine ⟨⟨e :: p, qs, rfl, List.cons_ne_nil e p⟩, ?_⟩
    simpa [productionsTokens_consElement e hp] using helement hr hskip (by decide) hrest
  | case5 => cases hread
  | case6 governed s e r hr _ r' hskip ps' _ hps ih =>
    obtain ⟨rfl, rfl⟩ := Prod.mk.inj (Except.ok.inj hread)
    obtain ⟨⟨p, qs, rfl, hp⟩, hrest⟩ := ih hps h
    refine ⟨⟨[e], p :: qs, rfl, List.cons_ne_nil e []⟩, ?_⟩
    simpa [productionsTokens, Production.tokens] using helement hr hskip (by decide) hrest
  | case7 governed s e r hr _ r' hskip =>
    obtain ⟨rfl, rfl⟩ := Prod.mk.inj (Except.ok.inj hread)
    exact ⟨⟨[e], [], rfl, List.cons_ne_nil e []⟩, helement hr hskip (by decide) h⟩
  | case8 => cases hread

private theorem laidOut_of_readCategories {name : String} {cs : List Category}
    (hread : readCategories name s = .ok (cs, rest)) (h : LaidOut [] ts rest) :
    LaidOut [] (cs.map String.toList ++ ['.'] :: ts) s := by
  fun_induction readCategories name s generalizing cs rest with
  | case1 s r hskip =>
    obtain ⟨rfl, rfl⟩ := Prod.mk.inj (Except.ok.inj hread)
    exact .mark_of_skipGap hskip h (by decide)
  | case2 => cases hread
  | case3 => cases hread
  | case4 s c r cs' _ hcs _ hname ih =>
    obtain ⟨rfl, rfl⟩ := Prod.mk.inj (Except.ok.inj hread)
    obtain ⟨hskip, hc⟩ := category?_eq_append hname
    have hrest := (ih hcs h).behind (runsInto_of_category? hname)
    simpa using LaidOut.of_skipGap hskip hc hrest

private theorem laidOut_of_arrow? (harrow : arrow? (skipGap s) = some (t, rest))
    (h : LaidOut [] ts rest) : LaidOut [] (['=', '=', '>'] :: ts) s := by
  obtain ⟨hskip, hne⟩ := arrow?_eq_append harrow
  obtain rfl : t = ['=', '=', '>'] := by
    unfold arrow? at harrow
    split at harrow
    · exact (Prod.mk.inj (Option.some.inj harrow)).1.symm
    · cases harrow
  refine .of_skipGap hskip hne (h.behind fun c _ => ?_)
  exact runsInto_eq_false_of_getLast? (by decide) rfl (by decide) [c]

/-- A statement that is read stands at the front of a layout. -/
theorem laidOut_of_readStatement {st : Statement}
    (hread : readStatement listing (skipGap s) = .ok (st, rest)) (h : LaidOut [] ts rest) :
    LaidOut [] (st.tokens ++ ts) s := by
  unfold readStatement at hread
  split at hread
  · unfold readDirective at hread
    split at hread
    · cases hread
    · rename_i name r hname
      split at hread
      · cases hread
      · rename_i cs _ hcs
        obtain ⟨rfl, rfl⟩ := Prod.mk.inj (Except.ok.inj hread)
        obtain ⟨hskip, hne⟩ := directiveName?_eq_append hname
        have hrest := (laidOut_of_readCategories hcs h).behind (runsInto_of_directiveName? hname)
        simpa [Statement.tokens] using LaidOut.of_skipGap hskip hne hrest
  · unfold readRules at hread
    split at hread
    · cases hread
    · rename_i name r hname
      split at hread
      · cases hread
      · rename_i t r' harrow
        split at hread
        · cases hread
        · rename_i ps _ hps
          obtain ⟨rfl, rfl⟩ := Prod.mk.inj (Except.ok.inj hread)
          obtain ⟨hskip, hne⟩ := category?_eq_append hname
          obtain ⟨-, hproductions⟩ := laidOut_of_readProductions hps h
          have hrest := (laidOut_of_arrow? harrow hproductions).behind (runsInto_of_category? hname)
          simpa [Statement.tokens] using LaidOut.of_skipGap hskip hne hrest

/-- A text whose statements are read without an error is a layout of them. -/
theorem laidOut_of_readStatements (h : (readStatements listing s).error? = none) :
    LaidOut [] ((readStatements listing s).statements.flatMap Statement.tokens) s := by
  fun_induction readStatements listing s with
  | case1 s hempty =>
    obtain ⟨gap, hs, hgap⟩ := exists_gap s
    rw [List.isEmpty_iff.1 hempty, List.append_nil] at hs
    exact .nil (hs ▸ hgap.elim .closed And.left)
  | case2 => cases h
  | case3 s _ st r hst following ih => exact laidOut_of_readStatement hst (ih h)

/-- The statements of a text are those of the right shape of which the text is a layout, so it is
a layout of no others. -/
theorem readStatements_eq_iff {sts : List Statement} :
    readStatements listing s = ⟨sts, none⟩ ↔
      (∀ st ∈ sts, st.Valid listing) ∧ LaidOut [] (sts.flatMap Statement.tokens) s := by
  refine ⟨fun h => ?_, fun h => readStatements_layout h.1 h.2⟩
  have hvalid := readStatements_valid listing s
  have hlaid := laidOut_of_readStatements (s := s) (congrArg Reading.error? h)
  rw [h] at hvalid hlaid
  exact ⟨hvalid, hlaid⟩

end Chunker.Grammar
