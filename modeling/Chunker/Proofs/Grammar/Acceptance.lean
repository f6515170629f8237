import Chunker.Chart
import Chunker.Proofs.Grammar.Contents
import Chunker.Proofs.Grammar.Matching

/-!
# Which words a pattern accepts

A word offers three categories under an analysis: its tag alone, the tag with the form, and the tag
with the lemma. A pattern that was read with a wildcard has a stem before it and a condition after
it. The tag has to begin with the stem, and of the three categories only the one with the
condition's kind of brackets can be accepted. What stands between these brackets is the text of the
condition, or one of the lines of the file that the condition refers to.

Nothing is cut in the wrong place, whatever the form and the lemma look like. A name has no bracket,
so the first bracket of a pattern opens its condition, and the first bracket of a category that a
word offers comes right after the tag. No condition has a star, so the star of a pattern ends its
name; and only references have quotes.

## Main definitions

* `Grammar.ConditionKind.subject` : the text of a word that a kind of condition is about.
* `Grammar.IsListed` : the texts that a condition file lists.
* `Grammar.HasParts` : the parts of a pattern with a wildcard.

## Main results

* `RuleSet.accepts_append_iff` : what a pattern with a wildcard accepts of a tag with a condition.
* `Grammar.exists_parts_of_ofTextIn` : a pattern that is read with a wildcard has parts.
* `Grammar.accepts_of_ofTextIn` : which categories of a word a pattern accepts.
-/

namespace Chunker

/-! ### Parts of categories -/

namespace Category

/-- Holds of a text without a bracket that opens a condition. -/
def IsPlain (t : String) : Prop :=
  ∀ x ∈ t.toList, opensCondition x = false

/-- Holds of a text that is empty or begins with a bracket which opens a condition. -/
def IsEnding (s : String) : Prop :=
  ∀ x ∈ s.toList.head?, opensCondition x

variable {t s stem : String}

theorem isEnding_empty : IsEnding "" := fun _ h => by cases h

theorem condition_append (ht : IsPlain t) (hs : IsEnding s) : condition (t ++ s) = s := by
  rw [condition, String.toList_append, List.dropWhile_append_of_pos fun x hx => by simp [ht x hx]]
  cases hcs : s.toList with
  | nil => rw [List.dropWhile_nil, ← hcs, String.ofList_toList]
  | cons x xs =>
    rw [List.dropWhile_cons_of_neg (by simp [hs x (by simp [hcs])]), ← hcs, String.ofList_toList]

theorem base_append (ht : IsPlain t) (hs : IsEnding s) : base (t ++ s) = t := by
  have h := base_append_condition (t ++ s)
  rw [condition_append ht hs] at h
  exact (String.append_left_inj s).1 h

theorem stem?_append (hstem : '*' ∉ stem.toList) (s : String) :
    stem? (stem ++ "*" ++ s) = some stem := by
  have htoList : (stem ++ "*" ++ s).toList = stem.toList ++ '*' :: s.toList := by simp
  rw [stem?, htoList, if_pos (by simp), List.takeWhile_append_of_pos, List.takeWhile_cons_of_neg,
    List.append_nil, String.ofList_toList]
  · simp
  · exact fun x hx => by simpa using ne_of_mem_of_not_mem hx hstem

/-- A text with an ending begins with a plain text if the text itself does. -/
theorem startsWith_append_iff (hstem : IsPlain stem) (hs : IsEnding s) :
    startsWith (t ++ s) stem ↔ startsWith t stem := by
  simp only [startsWith, List.isPrefixOf_iff_prefix, String.toList_append]
  refine ⟨fun h => ?_, fun h => h.trans (List.prefix_append _ _)⟩
  rcases List.prefix_or_prefix_of_prefix h (List.prefix_append _ _) with hle | ⟨rest, hrest⟩
  · exact hle
  · -- The plain text goes beyond the text, so it holds the first bracket of the ending.
    cases rest with
    | nil =>
      rw [List.append_nil] at hrest
      exact hrest ▸ List.prefix_rfl
    | cons x xs =>
      rw [← hrest, List.prefix_append_right_inj] at h
      obtain ⟨after, hs'⟩ := h
      have hx := hstem x (hrest ▸ List.mem_append_right _ List.mem_cons_self)
      rw [hs x (by simp [← hs'])] at hx
      cases hx

end Category

open Category

/-- What a pattern with a wildcard accepts of a tag with an ending. The tag begins with the stem,
and the ending is the condition of the pattern or, if this refers to a file, a condition that the
file lists. -/
theorem RuleSet.accepts_append_iff {g : RuleSet} {stem wanted tag has : String}
    (hstem : IsPlain stem) (hstar : '*' ∉ stem.toList) (hwanted : IsEnding wanted)
    (htag : IsPlain tag) (htagstar : '*' ∉ tag.toList) (hhas : IsEnding has) :
    g.accepts (stem ++ "*" ++ wanted) (tag ++ has) ↔ startsWith tag stem ∧
      if namesFile wanted then g.lists has wanted = true else has = wanted := by
  have hname : IsPlain (stem ++ "*") := fun x hx => by
    rw [String.toList_append, List.mem_append] at hx
    rcases hx with hx | hx
    · exact hstem x hx
    · obtain rfl := List.mem_singleton.1 hx
      rfl
  -- The two texts differ: the base of one of them has a star.
  have hne : stem ++ "*" ++ wanted ≠ tag ++ has := fun heq => by
    have hbase := congrArg base heq
    rw [base_append hname hwanted, base_append htag hhas] at hbase
    exact htagstar (by simp [← hbase])
  rw [accepts, beq_eq_false_iff_ne.2 hne, Bool.false_or, stem?_append hstar,
    condition_append hname hwanted, condition_append htag hhas, Bool.and_eq_true,
    startsWith_append_iff hstem hhas]
  refine and_congr_right fun _ => ?_
  by_cases hfile : namesFile wanted <;> simp [hfile]

namespace Grammar

/-! ### Endings -/

/-- The text of a word that a kind of condition is about: its form, in lower case, or its lemma. -/
def ConditionKind.subject (k : ConditionKind) (w : Word) (a : Analysis) : String :=
  match k with
  | form => w.lowerForm
  | lemmaForm => a.lemmaForm

theorem ConditionKind.opensCondition_opening (k : ConditionKind) : opensCondition k.opening := by
  cases k <;> rfl

theorem isEnding_entry (k : ConditionKind) (x : String) : IsEnding (entry k x) := by
  intro y hy
  rw [entry, String.toList_ofList, List.cons_append, List.head?_cons, Option.mem_some_iff] at hy
  exact hy ▸ k.opensCondition_opening

theorem entry_inj {k k' : ConditionKind} {x x' : String} :
    entry k x = entry k' x' ↔ k = k' ∧ x = x' := by
  refine ⟨fun h => ?_, fun ⟨hk, hx⟩ => by rw [hk, hx]⟩
  rw [entry, entry, String.ofList_inj, List.cons_append, List.cons_append, List.cons_eq_cons] at h
  obtain ⟨hopening, hrest⟩ := h
  obtain rfl : k = k' := by
    cases k <;> cases k' <;> first | rfl | cases hopening
  exact ⟨rfl, String.toList_inj.1 (List.append_cancel_right hrest)⟩

theorem entry_ne_empty (k : ConditionKind) (x : String) : entry k x ≠ "" := fun h => by
  have := congrArg String.toList h
  simp [entry] at this

theorem star_not_mem_entry (k : ConditionKind) {x : String} (h : '*' ∉ x.toList) :
    '*' ∉ (entry k x).toList := by
  cases k <;> simpa [entry, ConditionKind.opening, ConditionKind.closing] using h

theorem namesFile_entry_iff (k : ConditionKind) (x : String) :
    namesFile (entry k x) ↔ '"' ∈ x.toList := by
  cases k <;> simp [namesFile, entry, ConditionKind.opening, ConditionKind.closing]

theorem IsName.exists_stem {c : Category} (h : IsName c.toList) (hstar : '*' ∈ c.toList) :
    ∃ stem, c = stem ++ "*" ∧ IsPlain stem ∧ '*' ∉ stem.toList := by
  have hplain := h.not_opensCondition
  obtain ⟨x, xs, hx, hxs, hc⟩ := h
  have hletters : '*' ∉ x :: xs := fun hmem => by
    have hall : ∀ y ∈ x :: xs, continuesName y :=
      List.forall_mem_cons.2 ⟨continuesName_of_beginsName hx, hxs⟩
    exact absurd (hall '*' hmem) (by decide)
  rcases hc with hc | hc
  · exact absurd (hc ▸ hstar) hletters
  · refine ⟨String.ofList (x :: xs), ?_, fun y hy => ?_, ?_⟩
    · simp [← String.toList_inj, hc]
    · rw [String.toList_ofList] at hy
      exact hplain y (hc ▸ List.mem_append_left _ hy)
    · rwa [String.toList_ofList]

theorem mem_seedCategories {w : Word} {a : Analysis} {c : Category} :
    c ∈ Chart.seedCategories w a ↔
      c = a.tag ∨ ∃ k : ConditionKind, c = a.tag ++ entry k (k.subject w a) := by
  have hform : a.tag ++ "(" ++ w.lowerForm ++ ")" = a.tag ++ entry .form w.lowerForm := by
    simp [← String.toList_inj, entry, ConditionKind.opening, ConditionKind.closing]
  have hlemma : a.tag ++ "<" ++ a.lemmaForm ++ ">" = a.tag ++ entry .lemmaForm a.lemmaForm := by
    simp [← String.toList_inj, entry, ConditionKind.opening, ConditionKind.closing]
  rw [Chart.seedCategories, hform, hlemma, List.mem_cons, List.mem_cons, List.mem_singleton]
  refine or_congr_right ⟨?_, ?_⟩
  · rintro (h | h)
    · exact ⟨.form, h⟩
    · exact ⟨.lemmaForm, h⟩
  · rintro ⟨_ | _, h⟩
    · exact .inl h
    · exact .inr h

/-! ### Conditions -/

/-- Holds of a text that is one of the lines of a file, without the blanks at its end, and not
empty. -/
def IsListed (contents text : String) : Prop :=
  text ≠ "" ∧ ∃ line ∈ Text.lines contents, text = Text.trimEnd line

section Condition

variable {source : Source} {dir : String}

theorem IsLiteral.exists_entry {s : String} (h : IsLiteral s.toList) :
    ∃ k x, s = entry k x ∧ '"' ∉ x.toList ∧ '*' ∉ x.toList := by
  obtain ⟨k, body, -, hbody, hs⟩ := h
  have hnot (x : Char) (hx : k.admits x = false) : x ∉ body := fun hmem => by
    rw [hbody x hmem] at hx
    cases hx
  refine ⟨k, String.ofList body, ?_, ?_, ?_⟩
  · rw [← String.toList_inj, hs, entry, String.toList_ofList, String.toList_ofList]
  · rw [String.toList_ofList]
    exact hnot _ (by cases k <;> decide +kernel)
  · rw [String.toList_ofList]
    exact hnot _ (by cases k <;> decide +kernel)

theorem IsReference.exists_entry {s : String} (h : IsReference s.toList) :
    ∃ k path, s = entry k ("\"" ++ path ++ "\"") ∧ '"' ∉ path.toList ∧ '*' ∉ path.toList := by
  obtain ⟨k, drive, body, hdrive, -, hbody, hs⟩ := h
  have hnot (x : Char) (hx : inPath x = false ∧ x ≠ ':' ∧ x.isAlpha = false) :
      x ∉ drive ++ body := fun hmem => by
    rcases List.mem_append.1 hmem with hmem | hmem
    · rcases hdrive with rfl | ⟨c, hc, rfl⟩
      · cases hmem
      · rcases List.mem_cons.1 hmem with rfl | hmem
        · rw [hc] at hx
          cases hx.2.2
        · exact hx.2.1 (List.mem_singleton.1 hmem)
    · rw [hbody x hmem] at hx
      cases hx.1
  refine ⟨k, String.ofList (drive ++ body), ?_, ?_, ?_⟩
  · simp [← String.toList_inj, hs, entry]
  · rw [String.toList_ofList]
    exact hnot _ (by decide +kernel)
  · rw [String.toList_ofList]
    exact hnot _ (by decide +kernel)

theorem referenceKind_entry (k : ConditionKind) (x : String) : referenceKind (entry k x) = k := by
  cases k <;> simp [referenceKind, entry, ConditionKind.opening]

private theorem dropWhile_quote {xs : List Char} (h : '"' ∉ xs) :
    xs.dropWhile (· == '"') = xs := by
  cases xs with
  | nil => rfl
  | cons x xs =>
    exact List.dropWhile_cons_of_neg (by simpa using (List.ne_of_not_mem_cons h).symm)

theorem referencePath_entry (k : ConditionKind) {path : String} (h : '"' ∉ path.toList) :
    referencePath (entry k ("\"" ++ path ++ "\"")) = path := by
  have hinner : ((entry k ("\"" ++ path ++ "\"")).toList.drop 1).dropLast =
      '"' :: (path.toList ++ ['"']) := by
    have hdrop : (entry k ("\"" ++ path ++ "\"")).toList.drop 1 =
        '"' :: (path.toList ++ ['"']) ++ [k.closing] := by
      simp [entry]
    rw [hdrop, List.dropLast_concat]
  have hfront : ('"' :: (path.toList ++ ['"'])).dropWhile (· == '"') =
      if path.toList = [] then [] else path.toList ++ ['"'] := by
    rw [List.dropWhile_cons_of_pos (by decide), List.dropWhile_append, dropWhile_quote h]
    simp
  have hback : '"' ∉ path.toList.reverse := by simpa using h
  simp only [referencePath, hinner, hfront]
  split
  · rename_i hnil
    rw [← String.toList_inj, hnil]
    simp
  · rw [List.reverse_append, List.reverse_singleton, List.singleton_append,
      List.dropWhile_cons_of_pos (by decide), dropWhile_quote hback, List.reverse_reverse,
      String.ofList_toList]

/-- The entries of a file are its listed texts between the brackets of the reference. -/
theorem mem_of_entries_eq_ok {k : ConditionKind} {path : String} {es : List String}
    (hpath : '"' ∉ path.toList)
    (h : entries source dir (entry k ("\"" ++ path ++ "\"")) = .ok es) :
    ∃ contents, source (Path.join dir path) = .ok contents ∧
      ∀ e, e ∈ es ↔ ∃ x, e = entry k x ∧ IsListed contents x := by
  simp only [entries, referencePath_entry k hpath, referenceKind_entry] at h
  split at h
  · cases h
  · rename_i contents hcontents
    obtain rfl := Except.ok.inj h
    refine ⟨contents, hcontents, fun e => ?_⟩
    simp only [IsListed, List.mem_map, List.mem_filter, bne_iff_ne]
    constructor
    · rintro ⟨_, ⟨⟨line, hline, rfl⟩, hne⟩, rfl⟩
      exact ⟨_, rfl, hne, line, hline, rfl⟩
    · rintro ⟨_, rfl, hne, line, hline, rfl⟩
      exact ⟨_, ⟨⟨line, hline, rfl⟩, hne⟩, rfl⟩

end Condition

/-! ### Elements of a text -/

theorem Element.mem_listings_iff {e : Element} {condition reference : String} :
    (condition, reference) ∈ e.listings ↔
      ∃ es, e.condition = .listed reference es ∧ condition ∈ es := by
  rw [Element.listings]
  cases e.condition with
  | absent => simp
  | literal t => simp
  | listed reference' es => simp [and_comm, eq_comm]

/-- The elements of the rules of a text. -/
def elementsOf (source : Source) (dir text : String) : List Element :=
  ((statementsOf source dir text).flatMap Statement.productions).flatMap Prod.snd

section Elements

variable {source : Source} {dir text : String} {gr : Grammar} {e : Element}

theorem elementsOf_valid (he : e ∈ elementsOf source dir text) : e.Valid (entries source dir) := by
  obtain ⟨q, hq, he⟩ := List.mem_flatMap.1 he
  exact (valid_of_mem_productions (statementsOf_valid source dir text) hq).2.2.1 e he

/-- A pattern of a rule that is read is the pattern of an element. -/
theorem exists_element_of_ofTextIn (h : ofTextIn source dir text = .ok gr) {r : Rule}
    (hr : r ∈ gr.rules.rules) {p : Category} (hp : p ∈ r.right) :
    ∃ e ∈ elementsOf source dir text, p = e.pattern := by
  rw [(hasContents_of_ofTextIn h).rules.mem_iff] at hr
  obtain ⟨q, hq, rfl⟩ := List.mem_map.1 hr
  obtain ⟨e, he, rfl⟩ := List.mem_map.1 hp
  exact ⟨e, List.mem_flatMap.2 ⟨q, hq, he⟩, rfl⟩

theorem exists_rule_of_mem_elementsOf (h : ofTextIn source dir text = .ok gr)
    (he : e ∈ elementsOf source dir text) : ∃ r ∈ gr.rules.rules, e.pattern ∈ r.right := by
  obtain ⟨q, hq, he⟩ := List.mem_flatMap.1 he
  refine ⟨Production.rule q.1 q.2, ?_, List.mem_map_of_mem he⟩
  rw [(hasContents_of_ofTextIn h).rules.mem_iff]
  exact List.mem_map_of_mem hq

/-- What is known under a reference comes from the elements with this reference. -/
theorem lists_iff_exists_element (h : ofTextIn source dir text = .ok gr)
    {condition reference : String} :
    gr.rules.lists condition reference ↔ ∃ e ∈ elementsOf source dir text,
      ∃ es, e.condition = .listed reference es ∧ condition ∈ es := by
  have hlistings : (contents (statementsOf source dir text)).listings =
      (elementsOf source dir text).flatMap Element.listings := List.flatMap_assoc.symm
  rw [(hasContents_of_ofTextIn h).lists, hlistings, List.mem_flatMap]
  simp only [Element.mem_listings_iff]

theorem lists_iff_of_ofTextIn (h : ofTextIn source dir text = .ok gr)
    (he : e ∈ elementsOf source dir text) {reference : String} {es : List String}
    (hlisted : e.condition = .listed reference es) (condition : String) :
    gr.rules.lists condition reference ↔ condition ∈ es := by
  have hentries {e' : Element} (he' : e' ∈ elementsOf source dir text) {es' : List String}
      (hlisted' : e'.condition = .listed reference es') :
      entries source dir reference = .ok es' := by
    have hvalid := (elementsOf_valid he').2
    rw [hlisted'] at hvalid
    exact hvalid.2
  rw [lists_iff_exists_element h]
  constructor
  · rintro ⟨e', he', es', hlisted', hmem⟩
    -- The file has the same entries wherever it is referred to.
    have hsame := (hentries he hlisted).symm.trans (hentries he' hlisted')
    obtain rfl := Except.ok.inj hsame
    exact hmem
  · exact fun hmem => ⟨e, he, es, hlisted, hmem⟩

end Elements

/-! ### Parts of a pattern -/

/-- The conditions of the patterns of a rule set: none, a text without quotes, or a reference to a
file of which the rule set knows the entries. -/
inductive IsCondition (source : Source) (dir : String) (g : RuleSet) : String → Prop
  | absent : IsCondition source dir g ""
  | literal (k : ConditionKind) {x : String} (hx : '"' ∉ x.toList) :
      IsCondition source dir g (entry k x)
  | listed (k : ConditionKind) {path contents : String}
      (hsource : source (Path.join dir path) = .ok contents)
      (hlists : ∀ has, g.lists has (entry k ("\"" ++ path ++ "\"")) ↔
        ∃ x, has = entry k x ∧ IsListed contents x) :
      IsCondition source dir g (entry k ("\"" ++ path ++ "\""))

/-- The parts of a pattern with a wildcard: a stem, the star, and a condition. -/
structure HasParts (source : Source) (dir : String) (g : RuleSet) (p : Category)
    (stem wanted : String) : Prop where
  eq : p = stem ++ "*" ++ wanted
  isPlain : IsPlain stem
  star_not_mem_stem : '*' ∉ stem.toList
  isCondition : IsCondition source dir g wanted
  star_not_mem_condition : '*' ∉ wanted.toList

section Parts

variable {source : Source} {dir text : String} {g : RuleSet} {p : Category} {stem wanted : String}
  {k : ConditionKind}

theorem IsCondition.isEnding (h : IsCondition source dir g wanted) : IsEnding wanted := by
  cases h with
  | absent => exact isEnding_empty
  | literal k => exact isEnding_entry k _
  | listed k => exact isEnding_entry k _

/-- The conditions that are read, which have no star. -/
theorem isCondition_of_ofTextIn {gr : Grammar} (h : ofTextIn source dir text = .ok gr) {e : Element}
    (he : e ∈ elementsOf source dir text) :
    IsCondition source dir gr.rules e.condition.text ∧ '*' ∉ e.condition.text.toList := by
  have hvalid := (elementsOf_valid he).2
  cases hcond : e.condition with
  | absent => exact ⟨.absent, List.not_mem_nil⟩
  | literal t =>
    rw [hcond] at hvalid
    obtain ⟨k, x, rfl, hquote, hstar⟩ := hvalid.exists_entry
    exact ⟨.literal k hquote, star_not_mem_entry k hstar⟩
  | listed reference es =>
    rw [hcond] at hvalid
    obtain ⟨k, path, rfl, hquote, hstar⟩ := hvalid.1.exists_entry
    obtain ⟨contents, hsource, hmem⟩ := mem_of_entries_eq_ok hquote hvalid.2
    have hlists := lists_iff_of_ofTextIn h he hcond
    exact ⟨.listed k hsource fun has => (hlists has).trans (hmem has),
      star_not_mem_entry k (by simpa using hstar)⟩

/-- A pattern that is read with a wildcard has parts. -/
theorem exists_parts_of_ofTextIn {gr : Grammar} (h : ofTextIn source dir text = .ok gr) {r : Rule}
    (hr : r ∈ gr.rules.rules) (hp : p ∈ r.right) (hwild : '*' ∈ p.toList) :
    ∃ stem wanted, HasParts source dir gr.rules p stem wanted := by
  obtain ⟨e, he, rfl⟩ := exists_element_of_ofTextIn h hr hp
  obtain ⟨hcondition, hstar⟩ := isCondition_of_ofTextIn h he
  rw [Element.pattern, String.toList_append, List.mem_append, or_iff_left hstar] at hwild
  obtain ⟨stem, hstem, hplain, hstem'⟩ := (elementsOf_valid he).1.exists_stem hwild
  exact ⟨stem, e.condition.text, by rw [Element.pattern, hstem], hplain, hstem', hcondition, hstar⟩

namespace HasParts

/-- The parts are told from the pattern. -/
theorem unique (h : HasParts source dir g p stem wanted) {stem' wanted' : String}
    (heq : p = stem' ++ "*" ++ wanted') : stem = stem' ∧ wanted = wanted' := by
  have htoList : stem.toList ++ '*' :: wanted.toList = stem'.toList ++ '*' :: wanted'.toList := by
    simpa using congrArg String.toList (h.eq.symm.trans heq)
  obtain ⟨hstem, -, hwanted⟩ :=
    (List.append_cons_inj_of_notMem h.star_not_mem_stem h.star_not_mem_condition).1 htoList
  exact ⟨String.toList_inj.1 hstem, String.toList_inj.1 hwanted⟩

theorem accepts_iff (h : HasParts source dir g p stem wanted) {tag has : String}
    (htag : IsPlain tag) (hstar : '*' ∉ tag.toList) (hhas : IsEnding has) :
    g.accepts p (tag ++ has) ↔ startsWith tag stem ∧
      if namesFile wanted then g.lists has wanted = true else has = wanted := by
  rw [h.eq]
  exact RuleSet.accepts_append_iff h.isPlain h.star_not_mem_stem h.isCondition.isEnding htag hstar
    hhas

/-! ### Categories of a word -/

variable {w : Word} {a : Analysis}

theorem accepts_iff_of_absent (h : HasParts source dir g p stem "") (htag : IsPlain a.tag)
    (hstar : '*' ∉ a.tag.toList) :
    ∀ c ∈ Chart.seedCategories w a, (g.accepts p c ↔ c = a.tag ∧ startsWith a.tag stem) := by
  have haccepts {has : String} (hhas : IsEnding has) :
      g.accepts p (a.tag ++ has) ↔ startsWith a.tag stem ∧ has = "" := by
    rw [h.accepts_iff htag hstar hhas, if_neg (by decide)]
  intro c hc
  rcases mem_seedCategories.1 hc with rfl | ⟨k, rfl⟩
  · rw [← String.append_empty (s := a.tag), haccepts isEnding_empty]
    simp
  · rw [haccepts (isEnding_entry k _), String.append_eq_left_iff, and_comm]

/-- What a pattern accepts of the categories of a word, if it accepts a tag with an ending for no
other ending than entries of one kind. -/
private theorem accepts_iff_of_entries {R : String → Prop}
    (haccepts : ∀ has, IsEnding has → (g.accepts p (a.tag ++ has) ↔
      startsWith a.tag stem ∧ ∃ x, has = entry k x ∧ R x)) :
    ∀ c ∈ Chart.seedCategories w a, (g.accepts p c ↔
      c = a.tag ++ entry k (k.subject w a) ∧ startsWith a.tag stem ∧ R (k.subject w a)) := by
  intro c hc
  rcases mem_seedCategories.1 hc with rfl | ⟨k', rfl⟩
  · have htag := haccepts "" isEnding_empty
    rw [String.append_empty] at htag
    rw [htag]
    refine iff_of_false ?_ ?_
    · rintro ⟨-, x, hx, -⟩
      exact entry_ne_empty k x hx.symm
    · rintro ⟨hx, -⟩
      exact entry_ne_empty k _ (String.append_eq_left_iff.1 hx.symm)
  · rw [haccepts _ (isEnding_entry k' _), String.append_right_inj, entry_inj]
    constructor
    · rintro ⟨hstem, x, hx, hR⟩
      obtain ⟨rfl, rfl⟩ := entry_inj.1 hx
      exact ⟨⟨rfl, rfl⟩, hstem, hR⟩
    · rintro ⟨⟨rfl, -⟩, hstem, hR⟩
      exact ⟨hstem, _, rfl, hR⟩

theorem accepts_iff_of_literal {x : String} (h : HasParts source dir g p stem (entry k x))
    (hx : '"' ∉ x.toList) (htag : IsPlain a.tag) (hstar : '*' ∉ a.tag.toList) :
    ∀ c ∈ Chart.seedCategories w a, (g.accepts p c ↔
      c = a.tag ++ entry k (k.subject w a) ∧ startsWith a.tag stem ∧ k.subject w a = x) := by
  refine accepts_iff_of_entries (R := (· = x)) fun has hhas => ?_
  rw [h.accepts_iff htag hstar hhas, if_neg (mt (namesFile_entry_iff k x).1 hx)]
  simp

theorem accepts_iff_of_listed {path : String}
    (h : HasParts source dir g p stem (entry k ("\"" ++ path ++ "\""))) (htag : IsPlain a.tag)
    (hstar : '*' ∉ a.tag.toList) :
    ∃ contents, source (Path.join dir path) = .ok contents ∧
      ∀ c ∈ Chart.seedCategories w a, (g.accepts p c ↔
        c = a.tag ++ entry k (k.subject w a) ∧ startsWith a.tag stem ∧
          IsListed contents (k.subject w a)) := by
  have hquote : '"' ∈ ("\"" ++ path ++ "\"").toList := by simp
  have hcondition := h.isCondition
  generalize hwanted : entry k ("\"" ++ path ++ "\"") = wanted at hcondition
  cases hcondition with
  | absent => exact absurd hwanted (entry_ne_empty k _)
  | literal k' hx =>
    obtain ⟨-, rfl⟩ := entry_inj.1 hwanted
    exact absurd hquote hx
  | @listed k' path' contents hsource hlists =>
    obtain ⟨rfl, htext⟩ := entry_inj.1 hwanted
    obtain rfl : path = path' := by simpa using htext
    refine ⟨contents, hsource, accepts_iff_of_entries fun has hhas => ?_⟩
    rw [h.accepts_iff htag hstar hhas, if_pos ((namesFile_entry_iff k _).2 hquote), hlists]

end HasParts

end Parts

/-- Which of the categories that a word offers a pattern accepts, for a pattern of a rule that is
read and an analysis whose tag has no bracket and no star. A pattern without a wildcard accepts
those that are equal to it. A pattern with a wildcard is a stem and the star, and perhaps a
condition. Without a condition it accepts the tag alone, if the tag begins with the stem. With one
it accepts only the category with the form or the lemma, according to the kind of the condition, if
the tag begins with the stem and the form or the lemma is the text of the condition or, where the
condition refers to a file, one of the lines of that file, which are not empty and have lost the
blanks at their end. -/
theorem accepts_of_ofTextIn {source : Source} {dir text : String} {gr : Grammar} {r : Rule}
    {p : Category} (h : ofTextIn source dir text = .ok gr) (hr : r ∈ gr.rules.rules)
    (hp : p ∈ r.right) (w : Word) {a : Analysis}
    (htag : '(' ∉ a.tag.toList ∧ '<' ∉ a.tag.toList ∧ '*' ∉ a.tag.toList) :
    let g := gr.rules
    let seeds := Chart.seedCategories w a
    ('*' ∉ p.toList → ∀ c ∈ seeds, (g.accepts p c ↔ c = p)) ∧
      ('*' ∈ p.toList → ∃ stem, p = stem ++ "*" ∨
        (∃ k x, '"' ∉ x.toList ∧ p = stem ++ "*" ++ entry k x) ∨
          ∃ k path, p = stem ++ "*" ++ entry k ("\"" ++ path ++ "\"")) ∧
      ∀ stem,
        (p = stem ++ "*" →
          ∀ c ∈ seeds, (g.accepts p c ↔ c = a.tag ∧ startsWith a.tag stem)) ∧
        (∀ k x, '"' ∉ x.toList → p = stem ++ "*" ++ entry k x →
          ∀ c ∈ seeds, (g.accepts p c ↔ c = a.tag ++ entry k (k.subject w a) ∧
            startsWith a.tag stem ∧ k.subject w a = x)) ∧
        ∀ k path, p = stem ++ "*" ++ entry k ("\"" ++ path ++ "\"") →
          ∃ contents, source (Path.join dir path) = .ok contents ∧
            ∀ c ∈ seeds, (g.accepts p c ↔ c = a.tag ++ entry k (k.subject w a) ∧
              startsWith a.tag stem ∧ IsListed contents (k.subject w a)) := by
  intro g seeds
  have hplain : IsPlain a.tag := fun x hx => by
    have hround : x ≠ '(' := ne_of_mem_of_not_mem hx htag.1
    have hangle : x ≠ '<' := ne_of_mem_of_not_mem hx htag.2.1
    simp [opensCondition, hround, hangle]
  have hstar := htag.2.2
  by_cases hwild : '*' ∈ p.toList
  · obtain ⟨stem, wanted, hparts⟩ := exists_parts_of_ofTextIn h hr hp hwild
    refine ⟨fun hnot => absurd hwild hnot, fun _ => ⟨stem, ?_⟩, fun stem' => ⟨?_, ?_, ?_⟩⟩
    · rw [hparts.eq]
      cases hparts.isCondition with
      | absent => exact .inl String.append_empty
      | @literal k x hx => exact .inr (.inl ⟨k, x, hx, rfl⟩)
      | @listed k path => exact .inr (.inr ⟨k, path, rfl⟩)
    · intro heq
      obtain ⟨rfl, rfl⟩ := hparts.unique (heq.trans String.append_empty.symm)
      exact hparts.accepts_iff_of_absent hplain hstar
    · intro k x hx heq
      obtain ⟨rfl, rfl⟩ := hparts.unique heq
      exact hparts.accepts_iff_of_literal hx hplain hstar
    · intro k path heq
      obtain ⟨rfl, rfl⟩ := hparts.unique heq
      exact hparts.accepts_iff_of_listed hplain hstar
  · refine ⟨fun _ c _ => ?_, fun hmem => absurd hmem hwild, fun stem => ⟨?_, ?_, ?_⟩⟩
    · rw [RuleSet.accepts_iff_eq (isWild_eq_false_iff.2 hwild), eq_comm]
    · rintro rfl
      exact absurd (by simp) hwild
    · rintro k x - rfl
      exact absurd (by simp) hwild
    · rintro k path rfl
      exact absurd (by simp) hwild

/-- A form with a bracket and a star, which a file lists with blanks behind it. -/
theorem accepts_of_ofTextIn_bracket_in_form :
    let source : Source := fun _ => .ok "dog\n\nc(a*t  \n"
    let pattern := "N*(\"animals\")"
    let w : Word := .tagged "C(a*t" "cat" "NN"
    let a : Analysis := ⟨"cat", "NN"⟩
    ∃ gr, ofTextIn source "." "np ==> N*(\"animals\"), +VB . @START np ." = .ok gr ∧
      (∃ r ∈ gr.rules.rules, pattern ∈ r.right) ∧
      ('(' ∉ a.tag.toList ∧ '<' ∉ a.tag.toList ∧ '*' ∉ a.tag.toList) ∧
      ∀ c ∈ Chart.seedCategories w a, (gr.rules.accepts pattern c ↔ c = "NN(c(a*t)") := by
  intro source pattern w a
  have hrules : (ofTextIn source "." "np ==> N*(\"animals\"), +VB . @START np .").toOption.map
      (fun gr => gr.rules.rules) = some [⟨"np", [pattern, "VB"], some 1⟩] := by decide +kernel
  obtain ⟨gr, hload, hrules⟩ := exists_eq_ok_of_map_toOption hrules
  have hr : ⟨"np", [pattern, "VB"], some 1⟩ ∈ gr.rules.rules := hrules ▸ List.mem_singleton_self _
  have htag : '(' ∉ a.tag.toList ∧ '<' ∉ a.tag.toList ∧ '*' ∉ a.tag.toList := by decide
  obtain ⟨-, -, hshape⟩ := accepts_of_ofTextIn hload hr List.mem_cons_self w htag
  obtain ⟨contents, hcontents, haccepts⟩ := (hshape "N").2.2 .form "animals" (by decide)
  obtain rfl := Except.ok.inj hcontents
  have hlisted : IsListed "dog\n\nc(a*t  \n" "c(a*t" :=
    ⟨by decide, "c(a*t  ", by decide, by decide⟩
  have hform : w.lowerForm = "c(a*t" := by decide +kernel
  refine ⟨gr, hload, ⟨_, hr, List.mem_cons_self⟩, htag, fun c hc => (haccepts c hc).trans ?_⟩
  rw [ConditionKind.subject, hform]
  exact and_iff_left ⟨by decide, hlisted⟩

end Grammar

end Chunker
