import Chunker.Grammar.Error
import Chunker.Grammar.Token

/-!
# Statements of a grammar

A grammar is a sequence of statements. A rule statement gives one category several productions:
`head ==> a, +b | c .` A production is a list of elements, at most one of which is marked with a
`+` as the governor. A directive says something about categories: `@PRIOR a b .`

An element with a condition that refers to a file is read together with the entries of the file.
So a file without a text is an error of the element, and goes before any error further on.

## Main definitions

* `Grammar.Element`, `Grammar.Production`, `Grammar.Statement` : what is written.
* `Grammar.readStatement` : the first statement of a text and the text after it.

## Main results

* `Grammar.length_readStatement_lt` : reading a statement takes something off the text.
-/

namespace Chunker.Grammar

/-! ### Syntax -/

/-- The condition of an element: none, a form or a lemma, or a reference to a file with the
conditions that the file lists. Each has its brackets. -/
inductive Condition where
  | absent
  | literal (text : String)
  | listed (reference : String) (entries : List String)

/-- The condition as it is written. -/
def Condition.text : Condition → String
  | absent => ""
  | literal text => text
  | listed reference _ => reference

/-- A pattern of a production: the mark of the governor, a category, perhaps with a wildcard, and a
condition. -/
structure Element where
  governs : Bool
  category : Category
  condition : Condition

/-- The pattern of an element. -/
def Element.pattern (e : Element) : Category :=
  e.category ++ e.condition.text

/-- The elements of a rule, from left to right. -/
abbrev Production := List Element

/-- The productions of a category, or the name of a directive, with its `@`, and its categories. -/
inductive Statement where
  | rules (head : Category) (productions : List Production)
  | directive (name : String) (categories : List Category)

/-! ### Elements -/

/-- The conditions that a file lists, by the reference to the file. -/
abbrev Listing := String → Except Unreadable (List String)

/-- The kind of text found at the front of a text that may begin with a condition. -/
inductive FoundCondition where
  | absent
  | literal (text : List Char)
  | reference (text : List Char)

/-- The condition at the front of a text, if there is one, and the text after it. -/
def findCondition (s : List Char) : FoundCondition × List Char :=
  match reference? .form s with
  | some (t, rest) => (.reference t, rest)
  | none =>
    match reference? .lemmaForm s with
    | some (t, rest) => (.reference t, rest)
    | none =>
      match literal? .form s with
      | some (t, rest) => (.literal t, rest)
      | none =>
        match literal? .lemmaForm s with
        | some (t, rest) => (.literal t, rest)
        | none => (.absent, s)

/-- The condition that has been found, with the entries of the file that it refers to. -/
def resolve (listing : Listing) : FoundCondition → Except Unreadable Condition
  | .absent => .ok .absent
  | .literal t => .ok (.literal (String.ofList t))
  | .reference t =>
    match listing (String.ofList t) with
    | .error u => .error u
    | .ok entries => .ok (.listed (String.ofList t) entries)

/-- The mark of a governor at the front of a text, and the text after it. -/
def takeMark : List Char → Bool × List Char
  | '+' :: s => (true, s)
  | s => (false, s)

/-- The first element of a text, of a rule for a category, and the text after it. -/
def readElement (listing : Listing) (head : Category) (s : List Char) :
    Except GrammarError (Element × List Char) :=
  match category? (skipGap (takeMark s).2) with
  | none => .error (.missingPattern head (excerpt (skipGap (takeMark s).2)))
  | some (name, rest) =>
    match resolve listing (findCondition (skipGap rest)).1 with
    | .error u => .error (.unreadableCondition head u)
    | .ok condition =>
      .ok (⟨(takeMark s).1, String.ofList name, condition⟩, (findCondition (skipGap rest)).2)

private theorem length_takeMark_le (s : List Char) : (takeMark s).2.length ≤ s.length := by
  unfold takeMark
  split <;> simp

private theorem length_of_append {s t rest : List Char} (h : s = t ++ rest ∧ t ≠ []) :
    rest.length < s.length := by
  obtain ⟨rfl, ht⟩ := h
  have := List.length_pos_iff.2 ht
  simp only [List.length_append]
  omega

private theorem length_findCondition_le (s : List Char) :
    (findCondition s).2.length ≤ s.length := by
  unfold findCondition
  split
  · exact Nat.le_of_lt (length_of_append (reference?_eq_append ‹_›))
  · split
    · exact Nat.le_of_lt (length_of_append (reference?_eq_append ‹_›))
    · split
      · exact Nat.le_of_lt (length_of_append (literal?_eq_append ‹_›))
      · split
        · exact Nat.le_of_lt (length_of_append (literal?_eq_append ‹_›))
        · exact Nat.le_refl _

theorem length_readElement_lt {listing : Listing} {head : Category} {s rest : List Char}
    {e : Element} (h : readElement listing head s = .ok (e, rest)) :
    rest.length < s.length := by
  unfold readElement at h
  split at h
  · cases h
  · rename_i name r hr
    split at h
    · cases h
    · obtain ⟨-, rfl⟩ := Prod.mk.inj (Except.ok.inj h)
      have h₁ := length_of_append (category?_eq_append hr)
      have h₂ := length_skipGap_le (takeMark s).2
      have h₃ := length_takeMark_le s
      have h₄ := length_findCondition_le (skipGap r)
      have h₅ := length_skipGap_le r
      omega

/-! ### Rule statements -/

/-- The productions with one more element in front of the first. -/
def consElement (e : Element) : List Production → List Production
  | [] => [[e]]
  | p :: ps => (e :: p) :: ps

/-- The productions of a rule for a category, from a point where an element is due, and the text
after the stop. It is given whether the production has a governor already. -/
def readProductions (listing : Listing) (head : Category) (governed : Bool) (s : List Char) :
    Except GrammarError (List Production × List Char) :=
  match _h : readElement listing head (skipGap s) with
  | .error err => .error err
  | .ok (e, rest) =>
    if governed && e.governs then .error (.secondGovernor head)
    else
      match _h' : skipGap rest with
      | ',' :: rest' =>
        match readProductions listing head (governed || e.governs) rest' with
        | .error err => .error err
        | .ok (ps, after) => .ok (consElement e ps, after)
      | '|' :: rest' =>
        match readProductions listing head false rest' with
        | .error err => .error err
        | .ok (ps, after) => .ok ([e] :: ps, after)
      | '.' :: rest' => .ok ([[e]], rest')
      | other => .error (.missingSeparator head (excerpt other))
termination_by s.length
decreasing_by
  all_goals
    have h₁ := length_readElement_lt _h
    have h₂ := length_skipGap_le s
    have h₃ := length_skipGap_le rest
    rw [_h'] at h₃
    simp only [List.length_cons] at h₃
    omega

/-- The first statement of a text that begins with a rule, and the text after it. -/
def readRules (listing : Listing) (s : List Char) :
    Except GrammarError (Statement × List Char) :=
  match category? s with
  | none => .error (.missingHead (excerpt s))
  | some (name, rest) =>
    match arrow? (skipGap rest) with
    | none => .error (.missingArrow (excerpt (skipGap rest)))
    | some (_, rest) =>
      match readProductions listing (String.ofList name) false rest with
      | .error err => .error err
      | .ok (ps, after) => .ok (.rules (String.ofList name) ps, after)

/-! ### Directives -/

/-- The categories of a directive up to the stop, and the text after it. -/
def readCategories (name : String) (s : List Char) :
    Except GrammarError (List Category × List Char) :=
  match _h : skipGap s with
  | '.' :: rest => .ok ([], rest)
  | other =>
    match _h' : category? other with
    | none => .error (.missingDirectiveCategory name (excerpt other))
    | some (c, rest) =>
      match readCategories name rest with
      | .error err => .error err
      | .ok (cs, after) => .ok (String.ofList c :: cs, after)
termination_by s.length
decreasing_by
  have h₁ := length_of_append (category?_eq_append _h')
  have h₂ := length_skipGap_le s
  rw [_h] at h₂
  omega

/-- The first statement of a text that begins with a directive, and the text after it. -/
def readDirective (s : List Char) : Except GrammarError (Statement × List Char) :=
  match directiveName? s with
  | none => .error (.missingDirective (excerpt s))
  | some (name, rest) =>
    match readCategories (String.ofList name) rest with
    | .error err => .error err
    | .ok (cs, after) => .ok (.directive (String.ofList name) cs, after)

/-! ### Statements -/

/-- The first statement of a text, and the text after it. -/
def readStatement (listing : Listing) (s : List Char) :
    Except GrammarError (Statement × List Char) :=
  if s.head? = some '@' then readDirective s else readRules listing s

private theorem length_readProductions_lt {listing : Listing} {head : Category} {b : Bool}
    {s rest : List Char} {ps : List Production}
    (h : readProductions listing head b s = .ok (ps, rest)) : rest.length < s.length := by
  fun_induction readProductions listing head b s generalizing ps rest with
  | case1 => cases h
  | case2 => cases h
  | case3 => cases h
  | case4 b s e r hr _ r' hr' ps' after _ ih =>
    obtain ⟨-, rfl⟩ := Prod.mk.inj (Except.ok.inj h)
    have h₁ := length_readElement_lt hr
    have h₂ := length_skipGap_le s
    have h₃ := length_skipGap_le r
    rw [hr', List.length_cons] at h₃
    have := ih ‹_›
    omega
  | case5 => cases h
  | case6 b s e r hr _ r' hr' ps' after _ ih =>
    obtain ⟨-, rfl⟩ := Prod.mk.inj (Except.ok.inj h)
    have h₁ := length_readElement_lt hr
    have h₂ := length_skipGap_le s
    have h₃ := length_skipGap_le r
    rw [hr', List.length_cons] at h₃
    have := ih ‹_›
    omega
  | case7 b s e r hr _ r' hr' =>
    obtain ⟨-, rfl⟩ := Prod.mk.inj (Except.ok.inj h)
    have h₁ := length_readElement_lt hr
    have h₂ := length_skipGap_le s
    have h₃ := length_skipGap_le r
    rw [hr', List.length_cons] at h₃
    omega
  | case8 => cases h

private theorem length_readCategories_lt {name : String} {s rest : List Char}
    {cs : List Category} (h : readCategories name s = .ok (cs, rest)) :
    rest.length < s.length := by
  fun_induction readCategories name s generalizing cs rest with
  | case1 s r hr =>
    obtain ⟨-, rfl⟩ := Prod.mk.inj (Except.ok.inj h)
    have h₂ := length_skipGap_le s
    rw [hr, List.length_cons] at h₂
    omega
  | case2 => cases h
  | case3 => cases h
  | case4 s c r cs' after hc _ hr ih =>
    obtain ⟨-, rfl⟩ := Prod.mk.inj (Except.ok.inj h)
    have h₁ := length_of_append (category?_eq_append hr)
    have h₂ := length_skipGap_le s
    have := ih hc
    omega

/-- Reading a statement takes something off the text. -/
theorem length_readStatement_lt {listing : Listing} {s rest : List Char} {st : Statement}
    (h : readStatement listing s = .ok (st, rest)) : rest.length < s.length := by
  unfold readStatement at h
  split at h
  · unfold readDirective at h
    split at h
    · cases h
    · rename_i hr
      split at h
      · cases h
      · rename_i hc
        obtain ⟨-, rfl⟩ := Prod.mk.inj (Except.ok.inj h)
        have h₁ := length_of_append (directiveName?_eq_append hr)
        have h₂ := length_readCategories_lt hc
        omega
  · unfold readRules at h
    split at h
    · cases h
    · rename_i name r hr
      split at h
      · cases h
      · rename_i ha
        split at h
        · cases h
        · rename_i hp
          obtain ⟨-, rfl⟩ := Prod.mk.inj (Except.ok.inj h)
          have h₁ := length_of_append (category?_eq_append hr)
          have h₂ := length_skipGap_le r
          have h₃ := length_of_append (arrow?_eq_append ha)
          have h₄ := length_readProductions_lt hp
          omega

end Chunker.Grammar
