import Chunker.Proofs.Grammar.Loading
import Mathlib.Data.List.Perm.Basic

/-!
# The written form of a rule set

The written form of a rule set is a text that can be loaded. Its first lines are comments; each
other line is a rule statement with a single production, in which the governor is marked. The
statements are those from which the rule set was read, cut into single productions and reordered:
the written form lists the rules by first patterns, in whatever order these stand. With a start
directive behind it, the text is loaded as a rule set with the same rules.

The written form does not tell the priorities and what else the directives say.

## Main definitions

* `RuleSet.Reorders` : the orders in which the parts of a rule set may stand.
* `RuleSet.SameRules` : the rule sets that answer alike about rules and conditions.

## Main results

* `Grammar.Production.rule_marked` : marking the governor leaves the rule of a production.
* `Grammar.laidOut_text_append_start` : the written form is a layout of statements.
* `Grammar.exists_sameRules_of_text` : a rule set that was read is read back from its text.
-/

namespace Chunker

/-! ### Buckets -/

namespace Index

variable {κ α : Type} [DecidableEq κ]

private theorem valuesIn_eq_nil {k : κ} {bs : List (κ × List α)} (h : k ∉ bs.map Prod.fst) :
    valuesIn k bs = [] := by
  induction bs with
  | nil => rfl
  | cons b bs ih => grind [valuesIn]

private theorem valuesIn_of_mem {bs : List (κ × List α)} (h : (bs.map Prod.fst).Nodup)
    {b : κ × List α} (hb : b ∈ bs) : valuesIn b.1 bs = b.2 := by
  induction bs with
  | nil => cases hb
  | cons b' bs ih => grind [valuesIn]

theorem get_of_perm {ix ix' : Index κ α} (h : ix.keys.Nodup)
    (hperm : ix'.buckets.Perm ix.buckets) (k : κ) : ix'.get k = ix.get k := by
  have hkeys : ix'.keys.Perm ix.keys := hperm.map Prod.fst
  by_cases hk : k ∈ ix.keys
  · obtain ⟨b, hb, rfl⟩ := List.mem_map.1 hk
    rw [get, get, valuesIn_of_mem h hb,
      valuesIn_of_mem (hkeys.nodup_iff.2 h) (hperm.mem_iff.2 hb)]
  · rw [get, get, valuesIn_eq_nil hk, valuesIn_eq_nil (mt hkeys.mem_iff.1 hk)]

/-- Where every value is filed under its key, the values with a key are those filed under it. -/
theorem filter_values {ix : Index κ α} (h : ix.keys.Nodup) {key : α → Option κ}
    (hkey : ∀ k, ∀ a ∈ ix.get k, key a = some k) (k : κ) :
    ix.values.filter (key · = some k) = ix.get k := by
  obtain ⟨bs⟩ := ix
  replace hkey : ∀ b ∈ bs, ∀ a ∈ b.2, key a = some b.1 := fun b hb a ha =>
    hkey b.1 a (by rwa [get, valuesIn_of_mem h hb])
  simp only [keys, values, get] at h ⊢
  induction bs with
  | nil => rfl
  | cons b bs ih =>
    obtain ⟨hb, hbs⟩ := List.forall_mem_cons.1 hkey
    rw [List.map_cons, List.nodup_cons] at h
    rw [List.flatMap_cons, List.filter_append, ih h.2 hbs]
    obtain ⟨k', as⟩ := b
    by_cases hk : k' = k
    · subst hk
      rw [List.filter_eq_self.2 (by simpa using hb), valuesIn_eq_nil h.1, List.append_nil,
        valuesIn, if_pos rfl]
    · rw [List.filter_eq_nil_iff.2 fun a ha => by simp [hb a ha, hk], List.nil_append,
        valuesIn, if_neg hk]

end Index

namespace Grammar

/-! ### Marked productions -/

namespace Production

variable {listing : Listing} {p : Production}

/-- The production with its governor marked, whether or not it was marked before. -/
def marked (p : Production) : Production :=
  p.mapIdx fun i e => { e with governs := i == governor p }

theorem governor_marked (hp : p ≠ []) : governor (marked p) = governor p := by
  have hfind : (marked p).findIdx? Element.governs = some (governor p) := by
    rw [List.findIdx?_eq_some_iff_getElem]
    refine ⟨by simpa [marked] using governor_lt hp, by simp [marked], fun j hj => ?_⟩
    simpa [marked] using Nat.ne_of_lt hj
  rw [governor, hfind, Option.getD_some]

/-- Marking the governor leaves the rule of a production. -/
theorem rule_marked (hp : p ≠ []) (head : Category) : rule head (marked p) = rule head p := by
  have hpatterns : (marked p).map Element.pattern = p.map Element.pattern := by
    refine List.ext_getElem (by simp [marked]) fun i _ _ => ?_
    simp [marked, Element.pattern]
  rw [rule, hpatterns, governor_marked hp, rule]

theorem listings_marked (p : Production) :
    (marked p).flatMap Element.listings = p.flatMap Element.listings := by
  have hlistings : (marked p).map Element.listings = p.map Element.listings := by
    refine List.ext_getElem (by simp [marked]) fun i _ _ => ?_
    simp [marked, Element.listings]
  rw [List.flatMap_def, hlistings, ← List.flatMap_def]

private theorem countP_mapIdx_le (p : Production) (n : Nat) :
    (p.mapIdx fun i e => { e with governs := i == n }).countP Element.governs ≤ 1 := by
  induction p generalizing n with
  | nil => simp
  | cons e p ih =>
    rw [List.mapIdx_cons, List.countP_cons]
    cases n with
    | zero =>
      have hrest : (p.mapIdx fun i e => { e with governs := i + 1 == 0 : Element }).countP
          Element.governs = 0 := by
        refine List.countP_eq_zero.2 fun x hx => ?_
        obtain ⟨i, hi, rfl⟩ := List.mem_mapIdx.1 hx
        simp
      rw [hrest, Nat.zero_add]
      split <;> simp
    | succ n => simpa using ih n

theorem Valid.marked (h : Production.Valid listing p) :
    Production.Valid listing (Production.marked p) := by
  refine ⟨by simpa [Production.marked] using h.1, fun e he => ?_, countP_mapIdx_le p _⟩
  obtain ⟨i, hi, rfl⟩ := List.mem_mapIdx.1 he
  exact h.2.1 p[i] (List.getElem_mem hi)

end Production

/-! ### Written rules -/

/-- The pattern of an element with the mark of a governor. -/
def Element.text (e : Element) : String :=
  if e.governs then "+" ++ e.pattern else e.pattern

theorem text_rule {p : Production} (hp : p ≠ []) (head : Category) :
    (Production.rule head p).text =
      head ++ " ==> " ++ ", ".intercalate ((Production.marked p).map Element.text) ++ " ." := by
  have hpatterns : (Production.rule head p).markedPatterns =
      (Production.marked p).map Element.text := by
    refine List.ext_getElem (by simp [Rule.markedPatterns, Production.rule, Production.marked])
      fun i _ _ => ?_
    have hgoverns : (Production.rule head p).governs i = (i == Production.governor p) := by
      rw [Rule.governs, Production.rule, Option.some_beq_some, Bool.beq_comm]
    simp only [Rule.markedPatterns, List.getElem_mapIdx, List.getElem_map, hgoverns,
      Production.marked, Element.text]
    simp [Production.rule, Element.pattern]
  have hne : (Production.marked p).map Element.text ≠ [] := by simpa [Production.marked] using hp
  rw [Rule.text, hpatterns]
  split
  · contradiction
  · rfl

section Layout

variable {listing : Listing} {prev s : List Char} {ts : List (List Char)}

/-- Behind a blank a layout can follow any token. -/
private theorem laidOut_blank (h : LaidOut [] ts s) (t : List Char) : LaidOut t ts (' ' :: s) :=
  h.gap (.blank (by decide) .nil) (List.cons_ne_nil ' ' [])

private theorem laidOut_newline (h : LaidOut [] ts s) (t : List Char) : LaidOut t ts ('\n' :: s) :=
  h.gap (.blank (by decide) .nil) (List.cons_ne_nil '\n' [])

private theorem laidOut_condition {c : Condition} (hc : c.Valid listing)
    (h : ∀ t, LaidOut t ts s) (t : List Char) :
    LaidOut t (c.tokens ++ ts) (c.text.toList ++ s) := by
  have hopening (k : ConditionKind) : continuesName k.opening = false := by cases k <;> decide
  cases c with
  | absent => exact h t
  | literal text =>
    refine .token (runsInto_eq_false ?_ t) (h _)
    obtain ⟨k, body, -, -, heq⟩ := hc
    simp [heq, hopening]
  | listed reference entries =>
    refine .token (runsInto_eq_false ?_ t) (h _)
    obtain ⟨⟨k, drive, body, -, -, -, heq⟩, -⟩ := hc
    simp [heq, hopening]

private theorem laidOut_element {e : Element} (he : e.Valid listing) (h : ∀ t, LaidOut t ts s) :
    LaidOut [] (e.tokens ++ ts) (e.text.toList ++ s) := by
  have hcondition := laidOut_condition he.2 h e.category.toList
  obtain ⟨governs, category, condition⟩ := e
  cases governs with
  | true =>
    simp only [Element.text, Element.pattern, Element.tokens, if_true, String.toList_append,
      List.append_assoc]
    exact .token rfl (.token rfl hcondition)
  | false =>
    simp only [Element.text, Element.pattern, Element.tokens, Bool.false_eq_true, if_false,
      String.toList_append, List.append_assoc]
    exact .token rfl hcondition

private theorem laidOut_elements {p : Production} (hp : p ≠ []) (hvalid : ∀ e ∈ p, e.Valid listing)
    (h : ∀ t, LaidOut t ts s) (t : List Char) :
    LaidOut t (Production.tokens p ++ ts)
      (' ' :: [',', ' '].intercalate (p.map (·.text.toList)) ++ s) := by
  induction p generalizing t with
  | nil => exact absurd rfl hp
  | cons e p ih =>
    have he := hvalid e List.mem_cons_self
    cases p with
    | nil =>
      rw [List.map_singleton, List.intercalate_singleton, Production.tokens]
      exact laidOut_blank (laidOut_element he h) t
    | cons e' p =>
      have hrest := ih (List.cons_ne_nil e' p) (fun x hx => hvalid x (List.mem_cons_of_mem e hx))
      have hcomma : continuesName ',' = false := by decide
      have hfirst := laidOut_element he fun t =>
        (hrest [',']).token (runsInto_eq_false (by simpa using hcomma) t)
      have hspaced := laidOut_blank hfirst t
      rw [Production.tokens, List.append_assoc]
      · simpa [List.intercalate_cons_cons] using hspaced
      · simp

/-- The written form of a rule is a layout of a statement with its marked production. -/
private theorem laidOut_rule {p : Production} (hp : Production.Valid listing p)
    (h : ∀ t, LaidOut t ts s) (head : Category) :
    LaidOut [] ((Statement.rules head [Production.marked p]).tokens ++ ts)
      ((Production.rule head p).text.toList ++ s) := by
  have hmarked := hp.marked
  have hstop : LaidOut [] (['.'] :: ts) ('.' :: s) := (h ['.']).token rfl
  have helements := laidOut_elements hmarked.1 hmarked.2.1 (laidOut_blank hstop) ['=', '=', '>']
  have harrow := laidOut_blank (helements.token rfl) head.toList
  have htext : LaidOut [] (head.toList :: _) _ := harrow.token rfl
  simpa [Statement.tokens, productionsTokens, text_rule hp.1, String.toList_intercalate,
    Function.comp_def] using htext

end Layout

/-! ### Written rule sets -/

/-- The statements of the written form: the productions, one by one, and the start symbol. -/
def reprinted (qs : List (Category × Production)) (start : Category) : List Statement :=
  qs.map (fun q => .rules q.1 [Production.marked q.2]) ++ [.directive "@START" [start]]

private theorem eq_start_of_mem_reprinted {qs : List (Category × Production)} {start : Category}
    {name : String} {cs : List Category} (h : .directive name cs ∈ reprinted qs start) :
    name = "@START" := by
  rcases List.mem_append.1 h with h | h
  · obtain ⟨q, -, heq⟩ := List.mem_map.1 h
    cases heq
  · exact (Statement.directive.inj (List.mem_singleton.1 h)).1

theorem consistent_reprinted {listing : Listing} {qs : List (Category × Production)}
    (hqs : ∀ q ∈ qs, IsName q.1.toList ∧ Production.Valid listing q.2) {start : Category}
    (hstart : IsName start.toList) : Consistent listing (reprinted qs start) where
  valid := by
    refine List.forall_mem_append.2 ⟨fun st hst => ?_, List.forall_mem_singleton.2 ?_⟩
    · obtain ⟨q, hq, rfl⟩ := List.mem_map.1 hst
      exact ⟨(hqs q hq).1, List.cons_ne_nil _ _, List.forall_mem_singleton.2 (hqs q hq).2.marked⟩
    · exact ⟨isDirectiveName_start, List.forall_mem_singleton.2 hstart⟩
  known _ _ hmem hname := absurd (eq_start_of_mem_reprinted hmem) hname
  start := by
    refine ⟨start, ?_⟩
    rw [reprinted, List.filter_append, List.filter_eq_nil_iff.2 fun st hst => ?_]
    · rfl
    · obtain ⟨q, -, rfl⟩ := List.mem_map.1 hst
      simp [Statement.isStart]
  introduced before name cs after h hname := by
    have hmem : .directive name cs ∈ reprinted qs start := by
      rw [h]
      exact List.mem_append_right before List.mem_cons_self
    exact absurd (eq_start_of_mem_reprinted hmem) hname

theorem contents_reprinted {qs : List (Category × Production)} (hqs : ∀ q ∈ qs, q.2 ≠ [])
    (start : Category) :
    (contents (reprinted qs start)).rules = qs.map (fun q => Production.rule q.1 q.2) ∧
      (contents (reprinted qs start)).listings =
        qs.flatMap (fun q => q.2.flatMap Element.listings) ∧
      (contents (reprinted qs start)).starts = [start] := by
  have hproductions : (reprinted qs start).flatMap Statement.productions =
      qs.map fun q => (q.1, Production.marked q.2) := by
    simp only [reprinted, List.flatMap_append, List.flatMap_map, List.flatMap_singleton,
      Statement.productions, List.map_singleton, List.append_nil]
    exact List.map_eq_flatMap.symm
  refine ⟨?_, ?_, ?_⟩
  · simp only [contents, hproductions, List.map_map]
    exact List.map_congr_left fun q hq => Production.rule_marked (hqs q hq) q.1
  · simp only [contents, hproductions, List.flatMap_map, Production.listings_marked]
  · simp [contents, reprinted, Statement.categories, List.flatMap_map]

/-- The lines of the rules, and the start directive behind them, are a layout. -/
private theorem laidOut_reprinted {listing : Listing} {qs : List (Category × Production)}
    (hqs : ∀ q ∈ qs, Production.Valid listing q.2) (start : Category) :
    LaidOut [] ((reprinted qs start).flatMap Statement.tokens)
      ((qs.map fun q => (Production.rule q.1 q.2).text ++ "\n").flatMap String.toList ++
        ("@START " ++ start ++ " .").toList) := by
  induction qs with
  | nil =>
    have hstop : LaidOut [] [['.']] ['.'] := .token rfl (.nil (.closed .nil))
    have hname : LaidOut [] _ _ := (laidOut_blank hstop start.toList).token rfl
    have hdirective : LaidOut [] _ _ :=
      (laidOut_blank hname ['@', 'S', 'T', 'A', 'R', 'T']).token rfl
    simpa [reprinted, Statement.tokens] using hdirective
  | cons q qs ih =>
    obtain ⟨hq, hqs⟩ := List.forall_mem_cons.1 hqs
    have hrule := laidOut_rule hq (laidOut_newline (ih hqs)) q.1
    simpa [reprinted] using hrule

private theorem isGap_head {g : RuleSet} (hstart : IsName g.start.toList)
    (hnonterminals : ∀ c ∈ g.nonterminals, IsName c.toList) :
    IsGap ((g.startLine ++ "\n" ++ g.nonterminalsLine ++ "\n").toList) := by
  have hstartLine : '\n' ∉ ("% start: " ++ g.start).toList := by
    rw [String.toList_append, List.mem_append, not_or]
    exact ⟨by decide, hstart.newline_not_mem⟩
  have hnonterminalsLine :
      '\n' ∉ ("% nonterminals:" ++ String.join (g.nonterminals.map (" " ++ ·))).toList := by
    rw [String.toList_append, List.mem_append, not_or, String.toList_join]
    refine ⟨by decide, fun hmem => ?_⟩
    obtain ⟨text, htext, hnewline⟩ := List.mem_flatMap.1 hmem
    obtain ⟨c, hc, rfl⟩ := List.mem_map.1 htext
    rw [String.toList_append, List.mem_append] at hnewline
    exact hnewline.elim (by decide) (hnonterminals c hc).newline_not_mem
  have hgap := IsGap.comment hstartLine (IsGap.comment hnonterminalsLine .nil)
  have hfirst : "%% start: ".toList = '%' :: "% start: ".toList := by decide
  have hsecond : "%% nonterminals:".toList = '%' :: "% nonterminals:".toList := by decide
  have hnewline : "\n".toList = ['\n'] := by decide
  unfold RuleSet.startLine RuleSet.nonterminalsLine
  simpa only [String.toList_append, hfirst, hsecond, hnewline, List.cons_append,
    List.append_assoc, List.nil_append] using hgap

/-- The written form of a rule set, with a start directive behind it, is a layout of the
statements of its rules. -/
theorem laidOut_text_append_start {listing : Listing} {g : RuleSet}
    {qs : List (Category × Production)} (hqs : ∀ q ∈ qs, Production.Valid listing q.2)
    (hrules : g.rules = qs.map fun q => Production.rule q.1 q.2) (hstart : IsName g.start.toList)
    (hnonterminals : ∀ c ∈ g.nonterminals, IsName c.toList) :
    LaidOut [] ((reprinted qs g.start).flatMap Statement.tokens)
      (g.text ++ "@START " ++ g.start ++ " .").toList := by
  have hlayout : LaidOut [] _ _ :=
    (laidOut_reprinted hqs g.start).gap (isGap_head hstart hnonterminals) (by simp)
  simpa [RuleSet.text, hrules, String.toList_join, List.flatMap_map, Function.comp_def]
    using hlayout

end Grammar

/-! ### Reading back -/

/-- Holds of a rule set that differs from another only in the order in which its first patterns
and its nonterminals stand. The written form of such a rule set is as good as any. -/
structure RuleSet.Reorders (g₁ g : RuleSet) : Prop where
  start : g₁.start = g.start
  buckets : g₁.byFirst.buckets.Perm g.byFirst.buckets
  nonterminals : g₁.nonterminals.Perm g.nonterminals

/-- Whatever the order of the first patterns, the rules under one of them keep their order. -/
theorem RuleSet.Reorders.filter_rules {g₁ g : RuleSet} (h : g₁.Reorders g)
    (hkeys : g.byFirst.keys.Nodup) (hg : g.WellFormed) (p : Category) :
    g₁.rules.filter (·.right.head? = some p) = g.rulesStarting p := by
  have hkeys₁ : g₁.byFirst.keys.Nodup := (h.buckets.map Prod.fst).nodup_iff.2 hkeys
  have hget := Index.get_of_perm hkeys h.buckets
  rw [RuleSet.rules, Index.filter_values hkeys₁ (fun p r hr => ?_) p, hget, RuleSet.rulesStarting]
  rw [hget] at hr
  exact (hg.mem_byFirst.1 hr).2

/-- Holds of two rule sets that answer alike about rules and conditions. Under a first pattern the
same rules stand in the same order, while rules with a wildcard in front may stand in another one.
-/
structure RuleSet.SameRules (g g' : RuleSet) : Prop where
  start : g'.start = g.start
  nonterminals : ∀ c, c ∈ g'.nonterminals ↔ c ∈ g.nonterminals
  rulesStarting : ∀ p, g'.rulesStarting p = g.rulesStarting p
  wildRules : ∀ x, (g'.wildRules x).Perm (g.wildRules x)
  lists : ∀ condition reference, g'.lists condition reference = g.lists condition reference

/-- Two rule sets answer alike if their contents differ at most in the order of rules with
different first patterns and in the order of the entries of files. -/
theorem RuleSet.SameRules.of_contents {g g' : RuleSet} {k k' : Grammar.Contents}
    (h : g.HasContents k) (h' : g'.HasContents k') (hstarts : k'.starts = k.starts)
    (hrules : k'.rules.Perm k.rules)
    (horder : ∀ p : Category, k'.rules.filter (·.right.head? = some p) =
      k.rules.filter (·.right.head? = some p))
    (hlistings : k'.listings.Perm k.listings) : g.SameRules g' where
  start := by rw [h'.start, h.start, hstarts]
  nonterminals c := by
    rw [h'.nonterminals, h.nonterminals, hstarts, (hrules.map Rule.head).mem_iff]
  rulesStarting p := by rw [h'.rulesStarting, h.rulesStarting, horder]
  wildRules x := by
    rw [h'.wildRules, h.wildRules]
    exact hrules.filter _
  lists condition reference := by
    rw [Bool.eq_iff_iff, h'.lists, h.lists, hlistings.mem_iff]

namespace Grammar

variable {source : Source} {dir text : String} {g : RuleSet} {warnings : List Warning}

/-- What is known of a rule set that is read: the statements of the text, which name one start
symbol, and the shape of the rule set. -/
private theorem exists_statements_of_ofTextIn
    (h : ofTextIn source dir text = .ok ⟨g, warnings⟩) :
    ∃ sts : List Statement, (∀ st ∈ sts, st.Valid (entries source dir)) ∧
      g.HasContents (contents sts) ∧ (contents sts).starts = [g.start] ∧
        g.byFirst.keys.Nodup ∧ g.WellFormed := by
  obtain ⟨d, hcontents, hrules, -⟩ := exists_hasContents_of_ofTextIn h
  obtain rfl : d.rules = g := hrules
  exact ⟨_, statementsOf_valid source dir text, hcontents.toHasContents, (starts_of_ofTextIn h).1,
    hcontents.nodup_keys, wellFormed_of_ofTextIn h⟩

/-- A reordering of what a list is mapped to is what a reordering of the list is mapped to. -/
private theorem exists_perm_map_eq {α β : Type} {f : α → β} {l : List β} {xs : List α}
    (h : l.Perm (xs.map f)) : ∃ ys : List α, ys.Perm xs ∧ l = ys.map f := by
  have hmap : List.Forall₂ (fun b a => b = f a) (xs.map f) xs :=
    List.forall₂_map_left_iff.2 (List.forall₂_same.2 fun _ _ => rfl)
  obtain ⟨ys, hys, hperm⟩ := List.perm_comp_forall₂ h hmap
  exact ⟨ys, hperm, List.forall₂_eq_eq_eq ▸ List.forall₂_map_right_iff.2 hys⟩

/-- **A rule set that was read is read back from its written form.** The rules may be written
in any order of their first patterns; the files are those from which the rule set was read. -/
theorem exists_sameRules_of_text (h : ofTextIn source dir text = .ok ⟨g, warnings⟩)
    {g₁ : RuleSet} (hg₁ : g₁.Reorders g) :
    ∃ g' warnings', ofTextIn source dir (g₁.text ++ "@START " ++ g.start ++ " .") =
      .ok ⟨g', warnings'⟩ ∧ g.SameRules g' := by
  obtain ⟨sts, hsts, hcontents, hstarts, hkeys, hwf⟩ := exists_statements_of_ofTextIn h
  have hrules₁ : g₁.rules.Perm g.rules := hg₁.buckets.flatMap_right _
  -- The productions of the statements, in the order in which the rules are written.
  obtain ⟨qs, hperm, hrules⟩ := exists_perm_map_eq (hrules₁.trans hcontents.rules)
  have hqs : ∀ q ∈ qs, IsName q.1.toList ∧ Production.Valid (entries source dir) q.2 :=
    fun q hq => valid_of_mem_productions hsts (hperm.mem_iff.1 hq)
  have hnonterminals : ∀ c ∈ g₁.nonterminals, IsName c.toList := fun c hc =>
    hwf.isName c (hg₁.nonterminals.mem_iff.1 hc)
  have hstart : IsName g.start.toList := by
    refine hwf.isName _ ((hcontents.nonterminals _).2 (.inl ?_))
    rw [hstarts]
    exact List.mem_singleton_self _
  have hlayout := laidOut_text_append_start (fun q hq => (hqs q hq).2) hrules
    (hg₁.start ▸ hstart) hnonterminals
  rw [hg₁.start] at hlayout
  -- The written statements are consistent, and their contents are those of the text.
  have hconsistent := consistent_reprinted hqs hstart
  obtain ⟨d, happly, hcontents', hstart'⟩ := hconsistent.exists_draft
  obtain ⟨warnings', hload⟩ :=
    exists_ofTextIn_eq (readStatements_layout hconsistent.valid hlayout) happly hstart'
  obtain ⟨hrules', hlistings', hstarts'⟩ :=
    contents_reprinted (fun q hq => (hqs q hq).2.1) g.start
  refine ⟨d.rules, warnings', hload, .of_contents hcontents hcontents'.toHasContents ?_ ?_ ?_ ?_⟩
  · rw [hstarts', hstarts]
  · rw [hrules', ← hrules]
    exact hrules₁.trans hcontents.rules
  · intro p
    rw [hrules', ← hrules, hg₁.filter_rules hkeys hwf, hcontents.rulesStarting]
  · rw [hlistings']
    exact hperm.flatMap_right _

/-- Two first patterns, written in the opposite order, with a wildcard and a marked governor. -/
theorem exists_sameRules_of_reversed_patterns :
    let text := "S ==> NN, n* | n*, +NN . @START S ."
    let g := RuleSet.ofText text
    let g₁ := { g with byFirst := ⟨g.byFirst.buckets.reverse⟩ }
    g₁.rules ≠ g.rules ∧
      ∃ warnings, ofTextIn Source.empty "." text = .ok ⟨g, warnings⟩ ∧ g₁.Reorders g ∧
        ∃ g' warnings', ofTextIn Source.empty "." (g₁.text ++ "@START " ++ g.start ++ " .") =
          .ok ⟨g', warnings'⟩ ∧ g.SameRules g' := by
  intro text g g₁
  obtain ⟨warnings, hload⟩ : ∃ warnings, ofText Source.empty text = .ok ⟨g, warnings⟩ :=
    RuleSet.exists_ofText_eq (by decide +kernel)
  have hreorders : g₁.Reorders g := ⟨rfl, g.byFirst.buckets.reverse_perm, .refl _⟩
  exact ⟨by decide +kernel, warnings, hload, hreorders, exists_sameRules_of_text hload hreorders⟩

end Grammar

end Chunker
