import Chunker.Proofs.Grammar.Syntax

/-!
# Layouts

A sequence of tokens is laid out as a text by a gap before each token and a gap at the end. A
gap consists of blank characters and comments. It may be empty, except between two tokens that
would run together: two names, or the name of a directive and a capital letter. Only the last
comment of a text may lack the newline that closes it.

The scanners are followed token by token: at the front of a layout, a gap can be skipped and the
first token taken, and what remains is a layout of the other tokens.

## Main definitions

* `Grammar.IsGap`, `Grammar.IsFinalGap` : what stands between tokens and after the last.
* `Grammar.runsInto` : the test for two tokens that need a gap between them.
* `Grammar.LaidOut` : the texts in which a sequence of tokens is laid out.

## Main results

* `Grammar.LaidOut.exists_skipGap_eq` : behind a gap stands the first token.
* `Grammar.LaidOut.category?_append`, `Grammar.LaidOut.directiveName?_append` : a name ends where
  its token ends.
-/

namespace Chunker.Grammar

open Text

/-! ### Gaps -/

/-- Blank characters and comments, each comment with the newline that closes it. -/
inductive IsGap : List Char → Prop where
  | nil : IsGap []
  | blank {c : Char} {s : List Char} (hc : isBlank c) (h : IsGap s) : IsGap (c :: s)
  | comment {body s : List Char} (hbody : '\n' ∉ body) (h : IsGap s) :
      IsGap ('%' :: body ++ '\n' :: s)

/-- A gap at the end of a text, where the last comment may be left open. -/
inductive IsFinalGap : List Char → Prop where
  | closed {s : List Char} (h : IsGap s) : IsFinalGap s
  | opened {s body : List Char} (h : IsGap s) (hbody : '\n' ∉ body) :
      IsFinalGap (s ++ '%' :: body)

private theorem skipGapFrom_comment {body : List Char} (hbody : '\n' ∉ body) (rest : List Char) :
    skipGapFrom true (body ++ '\n' :: rest) = skipGapFrom false rest := by
  induction body with
  | nil => simp [skipGapFrom]
  | cons c body ih =>
    rw [List.mem_cons, not_or] at hbody
    rw [List.cons_append, skipGapFrom, if_pos rfl, bne_iff_ne.2 (Ne.symm hbody.1), ih hbody.2]

private theorem skipGapFrom_openComment {body : List Char} (hbody : '\n' ∉ body) :
    skipGapFrom true body = [] := by
  induction body with
  | nil => rfl
  | cons c body ih =>
    rw [List.mem_cons, not_or] at hbody
    rw [skipGapFrom, if_pos rfl, bne_iff_ne.2 (Ne.symm hbody.1), ih hbody.2]

private theorem skipGap_percent (s : List Char) : skipGap ('%' :: s) = skipGapFrom true s := by
  have h : isBlank '%' = false := by decide
  simp [skipGap, skipGapFrom, h]

theorem IsGap.skipGap_append {s : List Char} (h : IsGap s) (rest : List Char) :
    skipGap (s ++ rest) = skipGap rest := by
  induction h with
  | nil => rfl
  | blank hc _ ih =>
    rw [← ih]
    simp [skipGap, skipGapFrom, hc]
  | comment hbody _ ih =>
    rw [List.cons_append, List.cons_append, skipGap_percent, List.append_assoc, List.cons_append,
      skipGapFrom_comment hbody]
    exact ih

theorem IsFinalGap.skipGap_eq_nil {s : List Char} (h : IsFinalGap s) : skipGap s = [] := by
  cases h with
  | closed h => simpa [skipGap, skipGapFrom] using h.skipGap_append []
  | opened h hbody =>
    rw [h.skipGap_append, skipGap_percent, skipGapFrom_openComment hbody]

theorem IsGap.append {s s' : List Char} (h : IsGap s) (h' : IsGap s') : IsGap (s ++ s') := by
  induction h with
  | nil => exact h'
  | blank hc _ ih => exact .blank hc ih
  | comment hbody _ ih =>
    rw [List.append_assoc, List.cons_append]
    exact .comment hbody ih

theorem IsGap.append_final {s s' : List Char} (h : IsGap s) (h' : IsFinalGap s') :
    IsFinalGap (s ++ s') := by
  cases h' with
  | closed h' => exact .closed (h.append h')
  | opened h' hbody =>
    rw [← List.append_assoc]
    exact .opened (h.append h') hbody

private theorem exists_gap_append {g s : List Char} (hg : IsGap g)
    (h : ∃ gap, s = gap ++ skipGap s ∧ (IsGap gap ∨ IsFinalGap gap ∧ skipGap s = [])) :
    ∃ gap, g ++ s = gap ++ skipGap (g ++ s) ∧
      (IsGap gap ∨ IsFinalGap gap ∧ skipGap (g ++ s) = []) := by
  obtain ⟨gap, hs, hgap⟩ := h
  rw [hg.skipGap_append]
  exact ⟨g ++ gap, by rw [List.append_assoc, ← hs],
    hgap.imp hg.append fun ⟨hfinal, hnil⟩ => ⟨hg.append_final hfinal, hnil⟩⟩

/-- What is skipped is a gap. It leaves a comment open only if nothing is left of the text. -/
theorem exists_gap (s : List Char) :
    ∃ gap, s = gap ++ skipGap s ∧ (IsGap gap ∨ IsFinalGap gap ∧ skipGap s = []) := by
  -- Induction on the length: a comment is skipped as a whole.
  induction hn : s.length using Nat.strongRecOn generalizing s with
  | _ n ih =>
    cases s with
    | nil => exact ⟨[], rfl, .inl .nil⟩
    | cons c cs =>
      rw [List.length_cons] at hn
      by_cases hblank : isBlank c
      · exact exists_gap_append (.blank hblank .nil) (ih cs.length (by omega) cs rfl)
      · by_cases hpercent : c = '%'
        · subst hpercent
          by_cases hnewline : '\n' ∈ cs
          · obtain ⟨body, rest, rfl, hbody⟩ := List.eq_append_cons_of_mem hnewline
            rw [List.length_append, List.length_cons] at hn
            simpa using
              exists_gap_append (.comment hbody .nil) (ih rest.length (by omega) rest rfl)
          · have hskip : skipGap ('%' :: cs) = [] := by
              rw [skipGap_percent, skipGapFrom_openComment hnewline]
            exact ⟨'%' :: cs, by rw [hskip, List.append_nil],
              .inr ⟨.opened .nil hnewline, hskip⟩⟩
        · have hskip : skipGap (c :: cs) = c :: cs := by
            simp [skipGap, skipGapFrom, hblank, hpercent]
          exact ⟨[], by rw [hskip, List.nil_append], .inl .nil⟩

theorem IsGap.head {s : List Char} (h : IsGap s) : ∀ x ∈ s.head?, isBlank x ∨ x = '%' := by
  cases h with
  | nil => simp
  | blank hc _ => simpa using .inl hc
  | comment _ _ => simp

theorem IsFinalGap.head {s : List Char} (h : IsFinalGap s) :
    ∀ x ∈ s.head?, isBlank x ∨ x = '%' := by
  cases h with
  | closed h => exact h.head
  | @opened s _ h _ =>
    cases s with
    | nil => simp
    | cons c s => exact h.head

/-! ### Tokens -/

/-- The code points that may go on with a name: digits, letters and the hyphen. -/
private theorem continuesName_iff {c : Char} : continuesName c ↔
    ((65 ≤ c.toNat ∧ c.toNat ≤ 90 ∨ 97 ≤ c.toNat ∧ c.toNat ≤ 122) ∨
      48 ≤ c.toNat ∧ c.toNat ≤ 57) ∨ c = '-' := by
  have hupper : c.isUpper ↔ 65 ≤ c.toNat ∧ c.toNat ≤ 90 := decide_eq_true_iff
  have hlower : c.isLower ↔ 97 ≤ c.toNat ∧ c.toNat ≤ 122 :=
    Bool.and_eq_true_iff.trans (and_congr decide_eq_true_iff decide_eq_true_iff)
  have hdigit : c.isDigit ↔ 48 ≤ c.toNat ∧ c.toNat ≤ 57 :=
    Bool.and_eq_true_iff.trans (and_congr decide_eq_true_iff decide_eq_true_iff)
  have heq : continuesName c = (((c.isUpper || c.isLower) || c.isDigit) || c == '-') := rfl
  simp only [heq, Bool.or_eq_true, hupper, hlower, hdigit, beq_iff_eq]

theorem isUpper_eq_false {c : Char} (h : continuesName c = false) : c.isUpper = false := by
  refine Bool.eq_false_iff.2 fun hupper => ?_
  have hcode : 65 ≤ c.toNat ∧ c.toNat ≤ 90 := decide_eq_true_iff.1 hupper
  exact Bool.eq_false_iff.1 h (continuesName_iff.2 (.inl (.inl (.inl hcode))))

/-- Holds of two tokens that would be read as one if there were no gap between them. -/
def runsInto (t t' : List Char) : Bool :=
  if t.head? = some '@' then t'.head?.any Char.isUpper
  else t.getLast?.any continuesName && t'.head?.any continuesName

/-- A token that begins with no character of a name needs no gap in front of it. -/
theorem runsInto_eq_false {t' : List Char} (h : ∀ c ∈ t'.head?, continuesName c = false)
    (t : List Char) : runsInto t t' = false := by
  have hupper : ∀ c ∈ t'.head?, c.isUpper = false := fun c hc => isUpper_eq_false (h c hc)
  unfold runsInto
  cases hhead : t'.head? <;> simp_all

/-- Holds of a text that may be a token: it begins neither like a gap nor like the end of a
name. -/
def BeginsToken (t : List Char) : Prop :=
  ∃ c ∈ t.head?, isBlank c = false ∧ c ≠ '%' ∧ c ≠ '*'

theorem BeginsToken.ne_nil {t : List Char} (h : BeginsToken t) : t ≠ [] := by
  obtain ⟨c, hc, -⟩ := h
  rintro rfl
  cases hc

/-- A text is left alone when a token stands at its front. -/
theorem skipGap_eq_self {t : List Char} (ht : BeginsToken t) (s : List Char) :
    skipGap (t ++ s) = t ++ s := by
  obtain ⟨c, hc, hblank, hpercent, -⟩ := ht
  obtain ⟨cs, rfl⟩ := List.head?_eq_some_iff.1 hc
  simp [skipGap, skipGapFrom, hblank, hpercent]

/-- A character of a name is neither in a gap nor the end of a name. -/
theorem not_gap_of_continuesName {c : Char} (h : continuesName c) :
    isBlank c = false ∧ c ≠ '%' ∧ c ≠ '*' := by
  refine ⟨?_, fun he => absurd (he ▸ h) (by decide), fun he => absurd (he ▸ h) (by decide)⟩
  rcases continuesName_iff.1 h with h | rfl
  · simp [isBlank, blankRuns, Run.holds, Run.covers]
    omega
  · decide

theorem not_continuesName_of_gap {c : Char} (h : isBlank c ∨ c = '%') :
    continuesName c = false ∧ c ≠ '*' := by
  constructor
  · refine Bool.eq_false_iff.2 fun hcont => ?_
    obtain ⟨hblank, hpercent, -⟩ := not_gap_of_continuesName hcont
    rcases h with h | h
    · rw [hblank] at h
      cases h
    · exact hpercent h
  · rintro rfl
    revert h
    decide

theorem IsName.beginsToken {t : List Char} (h : IsName t) : BeginsToken t := by
  obtain ⟨c, hc, hletter⟩ := h.head?
  exact ⟨c, hc, not_gap_of_continuesName (continuesName_of_beginsName hletter)⟩

/-- A name does not begin with anything but a letter. -/
theorem IsName.append_ne_cons {t : List Char} (h : IsName t) {x : Char} (hx : beginsName x = false)
    (s r : List Char) : t ++ s ≠ x :: r := by
  obtain ⟨c, hc, hletter⟩ := h.head?
  obtain ⟨cs, rfl⟩ := List.head?_eq_some_iff.1 hc
  rw [List.cons_append]
  rintro heq
  rw [(List.cons_eq_cons.1 heq).1, hx] at hletter
  cases hletter

theorem IsDirectiveName.beginsToken {t : List Char} (h : IsDirectiveName t) : BeginsToken t := by
  obtain ⟨cs, -, -, rfl⟩ := h
  exact ⟨'@', rfl, by decide⟩

/-- The characters of a class end where the text behind them has none in front. -/
theorem span_append {p : Char → Bool} {cs s : List Char} (hcs : ∀ x ∈ cs, p x)
    (hs : ∀ x ∈ s.head?, p x = false) :
    (cs ++ s).takeWhile p = cs ∧ (cs ++ s).dropWhile p = s := by
  rw [List.takeWhile_append_of_pos hcs, List.dropWhile_append_of_pos hcs]
  cases s with
  | nil => simp
  | cons c s => simp [hs c rfl]

/-! ### Layouts -/

/-- The texts in which a sequence of tokens is laid out behind a given token. -/
inductive LaidOut : List Char → List (List Char) → List Char → Prop where
  | nil {prev s : List Char} (h : IsFinalGap s) : LaidOut prev [] s
  | cons {prev gap t s : List Char} {ts : List (List Char)} (hgap : IsGap gap)
      (hsep : runsInto prev t → gap ≠ []) (h : LaidOut t ts s) :
      LaidOut prev (t :: ts) (gap ++ t ++ s)

namespace LaidOut

variable {prev t s : List Char} {ts : List (List Char)}

theorem of_any (h : LaidOut prev ts s) : LaidOut [] ts s := by
  cases h with
  | nil h => exact .nil h
  | cons hgap _ h => exact .cons hgap (fun hruns => by cases hruns) h

theorem token (hruns : runsInto prev t = false) (h : LaidOut t ts s) :
    LaidOut prev (t :: ts) (t ++ s) :=
  .cons .nil (fun htrue => by rw [hruns] at htrue; cases htrue) h

theorem gap {gap : List Char} (hgap : IsGap gap) (hne : gap ≠ []) (h : LaidOut [] ts s) :
    LaidOut prev ts (gap ++ s) := by
  cases h with
  | nil h => exact .nil (hgap.append_final h)
  | cons hgap' _ h =>
    rw [← List.append_assoc, ← List.append_assoc]
    exact .cons (hgap.append hgap') (fun _ => by simp [hne]) h

theorem spaced (prev : List Char) (ts : List (List Char)) :
    LaidOut prev ts (ts.flatMap (' ' :: ·)) := by
  induction ts generalizing prev with
  | nil => exact .nil (.closed .nil)
  | cons t ts ih =>
    have htoken : LaidOut [] (t :: ts) _ := (ih t).token rfl
    simpa using htoken.gap (.blank (by decide : isBlank ' ') .nil) (List.cons_ne_nil _ _)

/-- Behind a gap stands the first token, and behind that a layout of the others. -/
theorem exists_skipGap_eq (h : LaidOut prev (t :: ts) s) (ht : BeginsToken t) :
    ∃ rest, skipGap s = t ++ rest ∧ LaidOut t ts rest := by
  cases h with
  | cons hgap _ h =>
    rw [List.append_assoc, hgap.skipGap_append, skipGap_eq_self ht]
    exact ⟨_, rfl, h⟩

theorem skipGap_eq_nil (h : LaidOut prev [] s) : skipGap s = [] := by
  cases h with
  | nil h => exact h.skipGap_eq_nil

/-- Behind a token there is a gap, or the next token, which it does not run into. -/
private theorem head_cases (h : LaidOut t ts s) (hts : ∀ t' ∈ ts.head?, BeginsToken t') {x : Char}
    (hx : s.head? = some x) :
    (isBlank x ∨ x = '%') ∨
      ∃ t' ∈ ts.head?, runsInto t t' = false ∧ t'.head? = some x ∧ x ≠ '*' := by
  cases h with
  | nil h => exact .inl (h.head x hx)
  | @cons _ gap t' s _ hgap hsep h =>
    cases gap with
    | nil =>
      obtain ⟨c, hc, -, -, hstar⟩ := hts t' rfl
      obtain ⟨cs, rfl⟩ := List.head?_eq_some_iff.1 hc
      obtain rfl : c = x := Option.some.inj hx
      exact .inr ⟨_, rfl, by simpa using hsep, rfl, hstar⟩
    | cons y gap =>
      obtain rfl : y = x := Option.some.inj hx
      exact .inl (hgap.head y rfl)

/-- A category ends where its token ends. -/
theorem category?_append (h : LaidOut t ts s) (ht : IsName t)
    (hts : ∀ t' ∈ ts.head?, BeginsToken t') : category? (t ++ s) = some (t, s) := by
  obtain ⟨c, cs, hc, hcs, rfl | rfl⟩ := ht
  · have hat : c ≠ '@' := fun he => absurd (he ▸ hc) (by decide)
    have hlast : (c :: cs).getLast?.any continuesName := by
      have hall : ∀ x ∈ c :: cs, continuesName x :=
        List.forall_mem_cons.2 ⟨continuesName_of_beginsName hc, hcs⟩
      rw [List.getLast?_eq_some_getLast (List.cons_ne_nil c cs)]
      exact hall _ (List.getLast_mem _)
    have hfree : ∀ x ∈ s.head?, continuesName x = false ∧ x ≠ '*' := by
      intro x hx
      rcases h.head_cases hts hx with hgap | ⟨t', -, hruns, hhead, hstar⟩
      · exact not_continuesName_of_gap hgap
      · exact ⟨by simpa [runsInto, hat, hlast, hhead] using hruns, hstar⟩
    obtain ⟨htake, hdrop⟩ := span_append hcs fun x hx => (hfree x hx).1
    rw [List.cons_append, category?, if_pos hc, htake, hdrop]
    split
    · exact absurd rfl (hfree '*' rfl).2
    · rfl
  · obtain ⟨htake, hdrop⟩ := span_append (s := '*' :: s) hcs (by simp; decide)
    rw [List.append_assoc, List.cons_append, List.singleton_append, category?, if_pos hc, htake,
      hdrop]
    rfl

/-- The name of a directive ends where its token ends. -/
theorem directiveName?_append (h : LaidOut t ts s) (ht : IsDirectiveName t)
    (hts : ∀ t' ∈ ts.head?, BeginsToken t') : directiveName? (t ++ s) = some (t, s) := by
  obtain ⟨cs, hne, hcs, rfl⟩ := ht
  have hfree : ∀ x ∈ s.head?, x.isUpper = false := by
    intro x hx
    rcases h.head_cases hts hx with hgap | ⟨t', -, hruns, hhead, -⟩
    · exact isUpper_eq_false (not_continuesName_of_gap hgap).1
    · simpa [runsInto, hhead] using hruns
  obtain ⟨htake, hdrop⟩ := span_append hcs hfree
  obtain ⟨c, cs, rfl⟩ := List.exists_cons_of_ne_nil hne
  simp only [List.cons_append] at htake hdrop
  simp only [List.cons_append, directiveName?, htake, hdrop]

end LaidOut

end Chunker.Grammar
