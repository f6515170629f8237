import Chunker.Proofs.Grammar.Layout

/-!
# Reading layouts

A statement is a sequence of tokens: names, conditions and marks of one character, and the arrow.
Whatever text its tokens are laid out in, the statement is what is read from that text, and what
remains is a layout of the tokens behind the statement.

## Main definitions

* `Grammar.Statement.tokens` : the tokens of a statement.

## Main results

* `Grammar.readStatements_layout` : a layout of valid statements is read as these statements.
-/

namespace Chunker.Grammar

/-! ### Conditions -/

namespace ConditionKind

theorem admits_closing (k : ConditionKind) : k.admits k.closing = false := by
  cases k <;> decide +kernel

theorem admits_quote (k : ConditionKind) : k.admits '"' = false := by
  cases k <;> decide +kernel

end ConditionKind

private theorem inPath_quote : inPath '"' = false := by decide +kernel

private theorem inPath_colon : inPath ':' = false := by decide +kernel

private theorem beginsToken_opening (k : ConditionKind) (s : List Char) :
    BeginsToken (k.opening :: s) :=
  ⟨k.opening, rfl, by cases k <;> decide⟩

theorem IsLiteral.beginsToken {t : List Char} (h : IsLiteral t) : BeginsToken t := by
  obtain ⟨k, body, -, -, rfl⟩ := h
  exact beginsToken_opening k _

theorem IsReference.beginsToken {t : List Char} (h : IsReference t) : BeginsToken t := by
  obtain ⟨k, drive, body, -, -, -, rfl⟩ := h
  exact beginsToken_opening k _

private theorem literal?_append {k : ConditionKind} {body : List Char} (hne : body ≠ [])
    (hbody : ∀ x ∈ body, k.admits x) (s : List Char) :
    literal? k (k.opening :: body ++ [k.closing] ++ s) =
      some (k.opening :: body ++ [k.closing], s) := by
  obtain ⟨htake, hdrop⟩ := span_append (s := k.closing :: s) hbody (by simp [k.admits_closing])
  obtain ⟨b, body, rfl⟩ := List.exists_cons_of_ne_nil hne
  simp only [List.cons_append, List.append_assoc, List.nil_append] at htake hdrop ⊢
  rw [literal?, if_pos rfl, htake, hdrop]
  simp

private theorem splitDrive_append_path {drive body : List Char} (hdrive : IsDrive drive)
    (hne : body ≠ []) (hbody : ∀ x ∈ body, inPath x) (s : List Char) :
    splitDrive (drive ++ body ++ '"' :: s) = (drive, body ++ '"' :: s) := by
  rcases hdrive with rfl | ⟨c, hc, rfl⟩
  · obtain ⟨b, body, rfl⟩ := List.exists_cons_of_ne_nil hne
    unfold splitDrive
    split
    · rename_i heq
      cases body with
      | nil => simp at heq
      | cons b' body =>
        have hcolon : b' = ':' := by simpa using congrArg (·.tail.head?) heq
        have := hbody b' (by simp)
        rw [hcolon, inPath_colon] at this
        cases this
    · rfl
  · simp [splitDrive, hc]

private theorem reference?_append {k : ConditionKind} {drive body : List Char}
    (hdrive : IsDrive drive) (hne : body ≠ []) (hbody : ∀ x ∈ body, inPath x) (s : List Char) :
    reference? k (k.opening :: '"' :: drive ++ body ++ ['"', k.closing] ++ s) =
      some (k.opening :: '"' :: drive ++ body ++ ['"', k.closing], s) := by
  have hsplit := splitDrive_append_path hdrive hne hbody (k.closing :: s)
  obtain ⟨htake, hdrop⟩ := span_append (s := '"' :: k.closing :: s) hbody (by simp [inPath_quote])
  obtain ⟨b, body, rfl⟩ := List.exists_cons_of_ne_nil hne
  simp only [List.cons_append, List.append_assoc, List.nil_append] at hsplit htake hdrop ⊢
  simp only [reference?, if_pos, hsplit, htake, hdrop]
  simp

private theorem literal?_eq_none {k : ConditionKind} {c : Char} (hc : c ≠ k.opening)
    (s : List Char) : literal? k (c :: s) = none := by
  simp [literal?, hc]

private theorem reference?_eq_none {k : ConditionKind} {c : Char} (hc : c ≠ k.opening)
    (s : List Char) : reference? k (c :: s) = none := by
  unfold reference?
  split
  · rename_i heq
    obtain ⟨rfl, -⟩ := List.cons_eq_cons.1 heq
    simp [hc]
  · rfl

private theorem reference?_eq_none_of_ne_quote (k : ConditionKind) {b : Char} (hb : b ≠ '"')
    (c : Char) (s : List Char) : reference? k (c :: b :: s) = none := by
  unfold reference?
  split
  · rename_i heq
    simp only [List.cons_eq_cons] at heq
    exact absurd heq.2.1 hb
  · rfl

theorem findCondition_literal {t : List Char} (h : IsLiteral t) (s : List Char) :
    findCondition (t ++ s) = (.literal t, s) := by
  obtain ⟨k, body, hne, hbody, rfl⟩ := h
  have hread := literal?_append hne hbody s
  obtain ⟨b, body, rfl⟩ := List.exists_cons_of_ne_nil hne
  have hb : b ≠ '"' := fun he => by
    have := hbody b List.mem_cons_self
    rw [he, k.admits_quote] at this
    cases this
  simp only [List.cons_append, List.append_assoc] at hread ⊢
  rw [findCondition, reference?_eq_none_of_ne_quote _ hb, reference?_eq_none_of_ne_quote _ hb]
  cases k with
  | form => rw [hread]
  | lemmaForm => rw [literal?_eq_none (by decide), hread]

theorem findCondition_reference {t : List Char} (h : IsReference t) (s : List Char) :
    findCondition (t ++ s) = (.reference t, s) := by
  obtain ⟨k, drive, body, hdrive, hne, hbody, rfl⟩ := h
  have hread := reference?_append (k := k) hdrive hne hbody s
  cases k with
  | form => rw [findCondition, hread]
  | lemmaForm =>
    rw [findCondition, hread]
    simp only [List.cons_append]
    rw [reference?_eq_none (by decide)]

theorem findCondition_absent {c : Char} (hc : Category.opensCondition c = false) (s : List Char) :
    findCondition (c :: s) = (.absent, c :: s) := by
  have hne (k : ConditionKind) : c ≠ k.opening := fun he => by
    rw [he] at hc
    cases k <;> cases hc
  rw [findCondition, reference?_eq_none (hne _), reference?_eq_none (hne _),
    literal?_eq_none (hne _), literal?_eq_none (hne _)]

/-! ### Statements -/

/-- The tokens of a condition: the whole of it, if there is one. -/
def Condition.tokens : Condition → List (List Char)
  | absent => []
  | literal text => [text.toList]
  | listed reference _ => [reference.toList]

/-- The tokens of an element: the mark of the governor, the category and the condition. -/
def Element.tokens (e : Element) : List (List Char) :=
  (if e.governs then [['+']] else []) ++ e.category.toList :: e.condition.tokens

/-- The tokens of a production: those of its elements, with commas between them. -/
def Production.tokens : Production → List (List Char)
  | [] => []
  | [e] => e.tokens
  | e :: p => e.tokens ++ [','] :: tokens p

/-- The tokens of several productions, with bars between them. -/
def productionsTokens : List Production → List (List Char)
  | [] => []
  | [p] => Production.tokens p
  | p :: ps => Production.tokens p ++ ['|'] :: productionsTokens ps

/-- The tokens of a statement, up to the stop. -/
def Statement.tokens : Statement → List (List Char)
  | .rules head ps => head.toList :: ['=', '=', '>'] :: productionsTokens ps ++ [['.']]
  | .directive name cs => name.toList :: cs.map String.toList ++ [['.']]

section Reading

variable {listing : Listing} {prev sep s : List Char} {ts : List (List Char)}

/-- A comma, a bar or a stop. -/
def IsSeparator (t : List Char) : Prop :=
  t = [','] ∨ t = ['|'] ∨ t = ['.']

private theorem IsSeparator.head {t : List Char} (h : IsSeparator t) :
    BeginsToken t ∧ ∃ c cs, t = c :: cs ∧ Category.opensCondition c = false := by
  rcases h with rfl | rfl | rfl <;>
    exact ⟨⟨_, rfl, by decide⟩, _, _, rfl, by decide⟩

private theorem beginsToken_stop : BeginsToken ['.'] :=
  ⟨'.', rfl, by decide⟩

private theorem beginsToken_of_mem_head?_names {cs : List Category}
    (hcs : ∀ c ∈ cs, IsName c.toList) :
    ∀ t ∈ (cs.map String.toList ++ ['.'] :: ts).head?, BeginsToken t := by
  cases cs with
  | nil => exact fun _ ht => Option.some.inj ht ▸ beginsToken_stop
  | cons c cs => exact fun _ ht => Option.some.inj ht ▸ (hcs c List.mem_cons_self).beginsToken

/-- A condition is read from a layout, with the entries of its file. -/
private theorem resolve_layout {c : Condition} (hc : c.Valid listing) (hsep : IsSeparator sep)
    (h : LaidOut prev (c.tokens ++ sep :: ts) s) :
    resolve listing (findCondition (skipGap s)).1 = .ok c ∧
      LaidOut [] (sep :: ts) (findCondition (skipGap s)).2 := by
  cases c with
  | absent =>
    obtain ⟨hbegins, c, cs, rfl, hopens⟩ := hsep.head
    obtain ⟨rest, hskip, hrest⟩ := LaidOut.exists_skipGap_eq h hbegins
    rw [hskip, List.cons_append, findCondition_absent hopens]
    exact ⟨rfl, hrest.token rfl⟩
  | literal text =>
    obtain ⟨rest, hskip, hrest⟩ := LaidOut.exists_skipGap_eq h (IsLiteral.beginsToken hc)
    rw [hskip, findCondition_literal hc]
    exact ⟨by rw [resolve, String.ofList_toList], hrest.of_any⟩
  | listed reference entries =>
    obtain ⟨rest, hskip, hrest⟩ := LaidOut.exists_skipGap_eq h (IsReference.beginsToken hc.1)
    rw [hskip, findCondition_reference hc.1]
    exact ⟨by rw [resolve, String.ofList_toList, hc.2], hrest.of_any⟩

private theorem beginsToken_of_mem_head? {c : Condition} (hc : c.Valid listing)
    (hsep : IsSeparator sep) : ∀ t ∈ (c.tokens ++ sep :: ts).head?, BeginsToken t := by
  cases c with
  | absent => exact fun _ ht => Option.some.inj ht ▸ hsep.head.1
  | literal text => exact fun _ ht => Option.some.inj ht ▸ IsLiteral.beginsToken hc
  | listed reference entries =>
    exact fun _ ht => Option.some.inj ht ▸ IsReference.beginsToken hc.1

private theorem exists_takeMark_eq {e : Element} (hname : IsName e.category.toList)
    (h : LaidOut prev (e.tokens ++ ts) s) :
    ∃ rest, (takeMark (skipGap s)).1 = e.governs ∧
      skipGap (takeMark (skipGap s)).2 = e.category.toList ++ rest ∧
        LaidOut e.category.toList (e.condition.tokens ++ ts) rest := by
  obtain ⟨governs, category, condition⟩ := e
  cases governs with
  | true =>
    obtain ⟨s', hskip, h'⟩ := LaidOut.exists_skipGap_eq h ⟨'+', rfl, by decide⟩
    obtain ⟨rest, hskip', h''⟩ := LaidOut.exists_skipGap_eq h' hname.beginsToken
    refine ⟨rest, ?_, ?_, h''⟩
    · rw [hskip]
      rfl
    · rw [hskip]
      exact hskip'
  | false =>
    obtain ⟨rest, hskip, h'⟩ := LaidOut.exists_skipGap_eq h hname.beginsToken
    have hmark : takeMark (category.toList ++ rest) = (false, category.toList ++ rest) := by
      unfold takeMark
      split
      · rename_i heq
        exact absurd heq (hname.append_ne_cons (by decide) _ _)
      · rfl
    refine ⟨rest, ?_, ?_, h'⟩
    · rw [hskip, hmark]
    · rw [hskip, hmark, skipGap_eq_self hname.beginsToken]

theorem readElement_layout {e : Element} (he : e.Valid listing) (hsep : IsSeparator sep)
    (h : LaidOut prev (e.tokens ++ sep :: ts) s) (head : Category) :
    ∃ rest, readElement listing head (skipGap s) = .ok (e, rest) ∧ LaidOut [] (sep :: ts) rest := by
  obtain ⟨rest, hmark, hskip, h'⟩ := exists_takeMark_eq he.1 h
  have hname := h'.category?_append he.1 (beginsToken_of_mem_head? he.2 hsep)
  obtain ⟨hresolve, hrest⟩ := resolve_layout he.2 hsep h'
  refine ⟨_, ?_, hrest⟩
  simp only [readElement, hskip, hname, hresolve, hmark, String.ofList_toList]

section Steps

variable {head : Category} {governed : Bool} {e : Element} {rest rest' after : List Char}
  {ps : List Production}

private theorem readProductions_of_stop
    (hread : readElement listing head (skipGap s) = .ok (e, rest))
    (hmarks : (governed && e.governs) = false) (hskip : skipGap rest = '.' :: rest') :
    readProductions listing head governed s = .ok ([[e]], rest') := by
  fun_cases readProductions listing head governed s <;> simp_all

private theorem readProductions_of_bar
    (hread : readElement listing head (skipGap s) = .ok (e, rest))
    (hmarks : (governed && e.governs) = false) (hskip : skipGap rest = '|' :: rest')
    (hrest : readProductions listing head false rest' = .ok (ps, after)) :
    readProductions listing head governed s = .ok ([e] :: ps, after) := by
  fun_cases readProductions listing head governed s <;> simp_all

private theorem readProductions_of_comma
    (hread : readElement listing head (skipGap s) = .ok (e, rest))
    (hmarks : (governed && e.governs) = false) (hskip : skipGap rest = ',' :: rest')
    (hrest : readProductions listing head (governed || e.governs) rest' = .ok (ps, after)) :
    readProductions listing head governed s = .ok (consElement e ps, after) := by
  fun_cases readProductions listing head governed s <;> simp_all

end Steps

/-- A production is read from a layout, up to the separator behind it. At a stop the rule ends;
at a bar other productions follow, of which none has a governor yet. -/
private theorem readProductions_production {p : Production} (hp : p ≠ [])
    (hvalid : ∀ e ∈ p, e.Valid listing) {governed : Bool}
    (hmarks : p.countP Element.governs + governed.toNat ≤ 1) {c : Char}
    (hsep : c = '|' ∨ c = '.') (h : LaidOut prev (Production.tokens p ++ [c] :: ts) s)
    (head : Category) :
    ∃ rest, LaidOut [] ts rest ∧
      (c = '.' → readProductions listing head governed s = .ok ([p], rest)) ∧
      (c = '|' → ∀ ps after, readProductions listing head false rest = .ok (ps, after) →
        readProductions listing head governed s = .ok (p :: ps, after)) := by
  -- Induction on the elements; the count of marks says that the governor is new.
  induction p generalizing governed prev s with
  | nil => exact absurd rfl hp
  | cons e p ih =>
    have hmark : (governed && e.governs) = false ∧
        p.countP Element.governs + (governed || e.governs).toNat ≤ 1 := by
      rw [List.countP_cons] at hmarks
      cases governed <;> cases hgov : e.governs <;> simp_all
    have he := hvalid e List.mem_cons_self
    cases p with
    | nil =>
      have hsep' : IsSeparator [c] := by
        rcases hsep with rfl | rfl
        · exact .inr (.inl rfl)
        · exact .inr (.inr rfl)
      obtain ⟨r, hread, hr⟩ := readElement_layout he hsep' h head
      obtain ⟨rest, hskip, hrest⟩ := hr.exists_skipGap_eq hsep'.head.1
      refine ⟨rest, hrest.of_any, ?_, ?_⟩
      · rintro rfl
        exact readProductions_of_stop hread hmark.1 hskip
      · rintro rfl ps after hafter
        exact readProductions_of_bar hread hmark.1 hskip hafter
    | cons e' p =>
      rw [Production.tokens, List.append_assoc] at h
      · obtain ⟨r, hread, hr⟩ := readElement_layout he (.inl rfl) h head
        obtain ⟨s', hskip, hs'⟩ := hr.exists_skipGap_eq ⟨',', rfl, by decide⟩
        obtain ⟨rest, hrest, hstop, hbar⟩ := ih (List.cons_ne_nil e' p)
          (fun x hx => hvalid x (List.mem_cons_of_mem e hx)) hmark.2 hs'
        refine ⟨rest, hrest, fun hc => ?_, fun hc ps after hafter => ?_⟩
        · exact readProductions_of_comma hread hmark.1 hskip (hstop hc)
        · exact readProductions_of_comma hread hmark.1 hskip (hbar hc ps after hafter)
      · simp

theorem readProductions_layout {ps : List Production} (hps : ps ≠ [])
    (hvalid : ∀ p ∈ ps, Production.Valid listing p)
    (h : LaidOut prev (productionsTokens ps ++ ['.'] :: ts) s) (head : Category) :
    ∃ rest, readProductions listing head false s = .ok (ps, rest) ∧ LaidOut [] ts rest := by
  induction ps generalizing prev s with
  | nil => exact absurd rfl hps
  | cons p ps ih =>
    obtain ⟨hp, helements, hmarks⟩ := hvalid p List.mem_cons_self
    have hfirst : p.countP Element.governs + false.toNat ≤ 1 := hmarks
    cases ps with
    | nil =>
      obtain ⟨rest, hrest, hstop, -⟩ :=
        readProductions_production hp helements hfirst (.inr rfl) h head
      exact ⟨rest, hstop rfl, hrest⟩
    | cons p' ps =>
      rw [productionsTokens, List.append_assoc] at h
      · obtain ⟨s', hs', -, hbar⟩ :=
          readProductions_production hp helements hfirst (.inl rfl) h head
        obtain ⟨rest, hread, hrest⟩ := ih (List.cons_ne_nil p' ps)
          (fun x hx => hvalid x (List.mem_cons_of_mem p hx)) hs'
        exact ⟨rest, hbar rfl _ _ hread, hrest⟩
      · simp

private theorem readCategories_of_stop {rest : List Char} (hskip : skipGap s = '.' :: rest)
    (name : String) : readCategories name s = .ok ([], rest) := by
  fun_cases readCategories name s <;> simp_all

private theorem readCategories_of_name {c rest after : List Char} {cs : List Category}
    {name : String} (hskip : skipGap s = c ++ rest) (hc : IsName c)
    (hname : category? (c ++ rest) = some (c, rest))
    (hrest : readCategories name rest = .ok (cs, after)) :
    readCategories name s = .ok (String.ofList c :: cs, after) := by
  fun_cases readCategories name s with
  | case1 _ hstop => exact absurd (hskip.symm.trans hstop) (hc.append_ne_cons (by decide) _ _)
  | case2 => simp_all
  | case3 => simp_all
  | case4 => simp_all

theorem readCategories_layout {cs : List Category} (hcs : ∀ c ∈ cs, IsName c.toList)
    (h : LaidOut prev (cs.map String.toList ++ ['.'] :: ts) s) (name : String) :
    ∃ rest, readCategories name s = .ok (cs, rest) ∧ LaidOut [] ts rest := by
  induction cs generalizing prev s with
  | nil =>
    obtain ⟨rest, hskip, hrest⟩ := LaidOut.exists_skipGap_eq h beginsToken_stop
    exact ⟨rest, readCategories_of_stop hskip name, hrest.of_any⟩
  | cons c cs ih =>
    have hc := hcs c List.mem_cons_self
    have hcs' : ∀ x ∈ cs, IsName x.toList := fun x hx => hcs x (List.mem_cons_of_mem c hx)
    obtain ⟨s', hskip, hs'⟩ := LaidOut.exists_skipGap_eq h hc.beginsToken
    have hname := hs'.category?_append hc (beginsToken_of_mem_head?_names hcs')
    obtain ⟨rest, hread, hrest⟩ := ih hcs' hs'
    refine ⟨rest, ?_, hrest⟩
    simpa using readCategories_of_name hskip hc hname hread

private theorem readDirective_layout {name : String} (hname : IsDirectiveName name.toList)
    {cs : List Category} (hcs : ∀ c ∈ cs, IsName c.toList)
    (h : LaidOut prev ((Statement.directive name cs).tokens ++ ts) s) :
    ∃ rest, readStatement listing (skipGap s) = .ok (.directive name cs, rest) ∧
      LaidOut [] ts rest := by
  rw [Statement.tokens, List.append_assoc] at h
  obtain ⟨s', hskip, hs'⟩ := LaidOut.exists_skipGap_eq h hname.beginsToken
  have hread := hs'.directiveName?_append hname (beginsToken_of_mem_head?_names hcs)
  obtain ⟨rest, hcats, hrest⟩ := readCategories_layout hcs hs' name
  refine ⟨rest, ?_, hrest⟩
  have hat : (name.toList ++ s').head? = some '@' := by
    obtain ⟨_, -, -, heq⟩ := hname
    rw [heq, List.cons_append, List.head?_cons]
  rw [hskip, readStatement, if_pos hat, readDirective]
  simp only [hread, String.ofList_toList, hcats]

private theorem readRules_layout {head : Category} (hhead : IsName head.toList)
    {ps : List Production} (hps : ps ≠ []) (hvalid : ∀ p ∈ ps, Production.Valid listing p)
    (h : LaidOut prev ((Statement.rules head ps).tokens ++ ts) s) :
    ∃ rest, readStatement listing (skipGap s) = .ok (.rules head ps, rest) ∧
      LaidOut [] ts rest := by
  rw [Statement.tokens, List.append_assoc] at h
  obtain ⟨s', hskip, hs'⟩ := LaidOut.exists_skipGap_eq h hhead.beginsToken
  have harrow : BeginsToken ['=', '=', '>'] := ⟨'=', rfl, by decide⟩
  have hname := hs'.category?_append hhead fun t ht => Option.some.inj ht ▸ harrow
  obtain ⟨s'', hskip', hs''⟩ := LaidOut.exists_skipGap_eq hs' harrow
  obtain ⟨rest, hread, hrest⟩ := readProductions_layout hps hvalid hs'' head
  refine ⟨rest, ?_, hrest⟩
  have hat : (head.toList ++ s').head? ≠ some '@' := fun hat => by
    obtain ⟨r, hr⟩ := List.head?_eq_some_iff.1 hat
    exact hhead.append_ne_cons (by decide) _ _ hr
  rw [hskip, readStatement, if_neg hat, readRules]
  simp only [hname, hskip', List.cons_append, List.nil_append, arrow?, String.ofList_toList, hread]

/-- A statement is read from a layout. -/
theorem readStatement_layout {st : Statement} (hst : st.Valid listing)
    (h : LaidOut prev (st.tokens ++ ts) s) :
    ∃ rest, readStatement listing (skipGap s) = .ok (st, rest) ∧ LaidOut [] ts rest := by
  cases st with
  | rules head ps => exact readRules_layout hst.1 hst.2.1 hst.2.2 h
  | directive name cs => exact readDirective_layout hst.1 hst.2 h

private theorem readStatements_of_statement {st : Statement} {rest : List Char}
    (hread : readStatement listing (skipGap s) = .ok (st, rest)) :
    readStatements listing s =
      ⟨st :: (readStatements listing rest).statements, (readStatements listing rest).error?⟩ := by
  have hne : (skipGap s).isEmpty = false := by
    cases hskip : skipGap s with
    | nil =>
      have := length_readStatement_lt hread
      simp [hskip] at this
    | cons => rfl
  fun_cases readStatements listing s with
  | case1 hempty => simp [hne] at hempty
  | case2 _ _ herror => simp [hread] at herror
  | case3 _ st' rest' hread' =>
    obtain ⟨rfl, rfl⟩ := Prod.mk.inj (Except.ok.inj (hread.symm.trans hread'))
    rfl

/-- A layout of valid statements is read as these statements, without an error. -/
theorem readStatements_layout {sts : List Statement} (hsts : ∀ st ∈ sts, st.Valid listing)
    (h : LaidOut prev (sts.flatMap Statement.tokens) s) :
    readStatements listing s = ⟨sts, none⟩ := by
  induction sts generalizing prev s with
  | nil => rw [readStatements, LaidOut.skipGap_eq_nil h, List.isEmpty_nil, if_pos rfl]
  | cons st sts ih =>
    rw [List.flatMap_cons] at h
    obtain ⟨rest, hread, hrest⟩ := readStatement_layout (hsts st List.mem_cons_self) h
    have hfollowing := ih (fun x hx => hsts x (List.mem_cons_of_mem st hx)) hrest
    rw [readStatements_of_statement hread, hfollowing]

end Reading

end Chunker.Grammar
