import Chunker.Text.Alphabetic
import Chunker.Text.Lowercase
import Chunker.Text.Blank

/-!
# Tokens of a grammar

A grammar is written with names of categories, conditions, the arrow `==>`, names of directives
and marks of a single character. Between tokens there may be gaps: blank characters, and
comments from a `%` to the end of the line.

A scanner takes a token off the front of a text. It returns the token and the text after it, or
nothing if the text does not begin with such a token.

## Main definitions

* `Grammar.skipGap` : the text after a gap.
* `Grammar.category?`, `Grammar.arrow?`, `Grammar.directiveName?` : the scanners for names and
  the arrow.
* `Grammar.literal?`, `Grammar.reference?` : the scanners for the two forms of a condition.

## Main results

* `Grammar.category?_eq_append` and its kind : a token and the text after it make up the text.
-/

namespace Chunker.Grammar

open Text

/-- A function that takes a token off the front of a text. -/
abbrev Scanner := List Char → Option (List Char × List Char)

/-! ### Gaps -/

/-- The text after a gap that begins inside a comment or outside. -/
def skipGapFrom (inComment : Bool) : List Char → List Char
  | [] => []
  | c :: cs =>
    if inComment then skipGapFrom (c != '\n') cs
    else if isBlank c then skipGapFrom false cs
    else if c = '%' then skipGapFrom true cs
    else c :: cs

/-- The text after a gap, which may be empty. -/
def skipGap (s : List Char) : List Char :=
  skipGapFrom false s

private theorem length_skipGapFrom_le (b : Bool) (s : List Char) :
    (skipGapFrom b s).length ≤ s.length := by
  induction s generalizing b with
  | nil => simp [skipGapFrom]
  | cons c cs ih =>
    have h₁ := ih (c != '\n')
    have h₂ := ih false
    have h₃ := ih true
    simp only [skipGapFrom, List.length_cons]
    split
    · omega
    · split
      · omega
      · split
        · omega
        · simp

theorem length_skipGap_le (s : List Char) : (skipGap s).length ≤ s.length :=
  length_skipGapFrom_le false s

/-! ### Names -/

/-- Holds of a character that may begin the name of a category. -/
def beginsName (c : Char) : Bool :=
  c.isAlpha

/-- Holds of a character that may go on with the name of a category. -/
def continuesName (c : Char) : Bool :=
  c.isAlphanum || c == '-'

/-- The scanner for a category: a letter, then letters, digits and hyphens, and at the end
perhaps a `*`. -/
def category? : Scanner
  | [] => none
  | c :: cs =>
    if beginsName c then
      match cs.dropWhile continuesName with
      | '*' :: rest => some (c :: cs.takeWhile continuesName ++ ['*'], rest)
      | rest => some (c :: cs.takeWhile continuesName, rest)
    else none

/-- The scanner for the name of a directive: `@` and capital letters. -/
def directiveName? : Scanner
  | '@' :: cs =>
    match cs.takeWhile Char.isUpper with
    | [] => none
    | name => some ('@' :: name, cs.dropWhile Char.isUpper)
  | _ => none

/-- The scanner for the arrow of a rule. -/
def arrow? : Scanner
  | '=' :: '=' :: '>' :: rest => some (['=', '=', '>'], rest)
  | _ => none

/-- A category and the text after it make up the text. -/
theorem category?_eq_append {s t rest : List Char} (h : category? s = some (t, rest)) :
    s = t ++ rest ∧ t ≠ [] := by
  unfold category? at h
  split at h
  · cases h
  · rename_i c cs
    split at h
    · have hs := List.takeWhile_append_dropWhile (p := continuesName) (l := cs)
      split at h
      · rename_i r hr
        obtain ⟨rfl, rfl⟩ := Prod.mk.inj (Option.some.inj h)
        rw [hr] at hs
        simp [hs]
      · obtain ⟨rfl, rfl⟩ := Prod.mk.inj (Option.some.inj h)
        simp [hs]
    · cases h

theorem directiveName?_eq_append {s t rest : List Char}
    (h : directiveName? s = some (t, rest)) : s = t ++ rest ∧ t ≠ [] := by
  unfold directiveName? at h
  split at h
  · rename_i cs
    split at h
    · cases h
    · obtain ⟨rfl, rfl⟩ := Prod.mk.inj (Option.some.inj h)
      simp
  · cases h

theorem arrow?_eq_append {s t rest : List Char} (h : arrow? s = some (t, rest)) :
    s = t ++ rest ∧ t ≠ [] := by
  unfold arrow? at h
  split at h
  · obtain ⟨rfl, rfl⟩ := Prod.mk.inj (Option.some.inj h)
    simp
  · cases h

/-! ### Conditions -/

/-- The two kinds of conditions: on the word form, between round brackets, and on the lemma, between
angle brackets. -/
inductive ConditionKind where
  | form
  | lemmaForm
deriving DecidableEq

namespace ConditionKind

/-- The bracket that opens a condition. -/
def opening : ConditionKind → Char
  | form => '('
  | lemmaForm => '<'

/-- The bracket that closes a condition. -/
def closing : ConditionKind → Char
  | form => ')'
  | lemmaForm => '>'

/-- Holds of a character that may stand in a literal condition. A lemma is written in lower
case. -/
def admits (k : ConditionKind) (c : Char) : Bool :=
  (match k with
    | form => isAlphabetic c
    | lemmaForm => isLowercase c) ||
    c == '_' || c == '\'' || c == '-' || c == '·'

end ConditionKind

/-- Holds of a character that may stand in the path of a condition file. -/
def inPath (c : Char) : Bool :=
  isAlphabetic c || c.isDigit || c == '_' || c == '-' || c == '.' || c == '/' || c == '\\'

/-- The scanner for a literal condition: admitted characters between brackets. -/
def literal? (k : ConditionKind) : Scanner
  | [] => none
  | c :: cs =>
    if c = k.opening then
      match cs.takeWhile k.admits, cs.dropWhile k.admits with
      | [], _ => none
      | _, [] => none
      | body, d :: rest => if d = k.closing then some (c :: body ++ [d], rest) else none
    else none

/-- A drive at the front of a path, a letter and a colon, and the path after it. -/
def splitDrive : List Char → List Char × List Char
  | c :: ':' :: cs => if c.isAlpha then ([c, ':'], cs) else ([], c :: ':' :: cs)
  | cs => ([], cs)

/-- The scanner for a condition that refers to a file: a path between quotes between brackets. -/
def reference? (k : ConditionKind) : Scanner
  | c :: '"' :: cs =>
    if c = k.opening then
      match (splitDrive cs).2.takeWhile inPath, (splitDrive cs).2.dropWhile inPath with
      | [], _ => none
      | body, '"' :: d :: rest =>
        if d = k.closing then
          some (c :: '"' :: (splitDrive cs).1 ++ body ++ ['"', d], rest)
        else none
      | _, _ => none
    else none
  | _ => none

theorem splitDrive_append (s : List Char) : (splitDrive s).1 ++ (splitDrive s).2 = s := by
  unfold splitDrive
  split
  · split <;> rfl
  · rfl

theorem literal?_eq_append {k : ConditionKind} {s t rest : List Char}
    (h : literal? k s = some (t, rest)) : s = t ++ rest ∧ t ≠ [] := by
  unfold literal? at h
  split at h
  · cases h
  · rename_i c cs
    split at h
    · have hs := List.takeWhile_append_dropWhile (p := k.admits) (l := cs)
      split at h
      · cases h
      · cases h
      · rename_i hd _
        split at h
        · obtain ⟨rfl, rfl⟩ := Prod.mk.inj (Option.some.inj h)
          rw [hd] at hs
          simp [hs]
        · cases h
    · cases h

theorem reference?_eq_append {k : ConditionKind} {s t rest : List Char}
    (h : reference? k s = some (t, rest)) : s = t ++ rest ∧ t ≠ [] := by
  unfold reference? at h
  split at h
  · rename_i c cs
    split at h
    · have hs := List.takeWhile_append_dropWhile (p := inPath) (l := (splitDrive cs).2)
      have hd := splitDrive_append cs
      generalize (splitDrive cs).1 = drive, (splitDrive cs).2 = path at h hs hd
      split at h
      · cases h
      · rename_i hr _
        split at h
        · obtain ⟨rfl, rfl⟩ := Prod.mk.inj (Option.some.inj h)
          rw [hr] at hs
          rw [← hs, ← List.append_assoc] at hd
          exact ⟨by simpa using hd.symm, by simp⟩
        · cases h
      · cases h
    · cases h
  · cases h

end Chunker.Grammar
