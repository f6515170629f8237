import Chunker.Proofs.Text.Fields
import Chunker.Sentence
import Mathlib.Data.List.Forall2

/-!
# Reading tagged sentences

A tagged text is a sentence if the lines that are not blank have a form followed by pairs of a lemma
and a tag, equally many on every line. There is a word for each of these lines. What is wrong with a
line goes before what is wrong between lines: a line without the right number of fields is reported
by its place in the text, even if an earlier word disagrees on the number of tag sequences, and a
word that disagrees is reported only if all lines are in order.

A sentence may be written with any blanks around the fields and any blank lines between the words,
and is read back as the same words.

## Main definitions

* `Sentence.IsTagged` : the rows of fields that make up a word.
* `Word.ReadFrom` : the word of a row of fields.
* `Sentence.WrittenIn` : the lines in which words are written.

## Main results

* `Sentence.wordOfFields_eq_some_iff` : a row of fields is read as its word.
* `Sentence.ofTagged_spec` : when a tagged text is a sentence, which one, and what is wrong if not.
-/

namespace Chunker

/-! ### Rows of fields -/

/-- The rows of fields that make up a word: a form, and at least one pair of a lemma and a tag. -/
def Sentence.IsTagged (fs : List String) : Prop :=
  3 ≤ fs.length ∧ fs.length % 2 = 1

/-- The word of a row of fields. The form is the first field; each pair of a lemma and a tag behind
it makes a tag sequence, under which it is the one analysis. -/
structure Word.ReadFrom (w : Word) (fs : List String) : Prop where
  isTagged : Sentence.IsTagged fs
  form : fs[0]? = some w.form
  sequences : w.sequences = (fs.length - 1) / 2
  analyses : ∀ k < (fs.length - 1) / 2, ∃ l t, fs[2 * k + 1]? = some l ∧
    fs[2 * k + 2]? = some t ∧ w.analyses k = [⟨l, t⟩]

namespace Sentence

variable {fs : List String} {w : Word}

private theorem analysesOfFields_eq_none_iff (fs : List String) :
    analysesOfFields fs = none ↔ fs.length % 2 = 1 := by
  fun_induction analysesOfFields fs with
  | case1 => simp
  | case2 => simp
  | case3 l t rest ih =>
    rw [Option.map_eq_none_iff, ih, List.length_cons, List.length_cons]
    omega

/-- A row makes up a word unless it is too short or its last lemma has no tag. -/
theorem wordOfFields_eq_none_iff : wordOfFields fs = none ↔ ¬ IsTagged fs := by
  rcases fs with _ | ⟨form, _ | ⟨l, _ | ⟨t, rest⟩⟩⟩
  · simp [wordOfFields, IsTagged]
  · simp [wordOfFields, IsTagged]
  · simp [wordOfFields, IsTagged]
  · rw [wordOfFields, Option.map_eq_none_iff, analysesOfFields_eq_none_iff, IsTagged]
    simp only [List.length_cons]
    omega

private theorem of_analysesOfFields {ass : List (List Analysis)}
    (h : analysesOfFields fs = some ass) : ass.length = fs.length / 2 ∧
      ∀ k < fs.length / 2, ∃ l t, fs[2 * k]? = some l ∧ fs[2 * k + 1]? = some t ∧
        ass[k]? = some [⟨l, t⟩] := by
  fun_induction analysesOfFields fs generalizing ass with
  | case1 =>
    obtain rfl := Option.some.inj h
    exact ⟨rfl, fun k hk => absurd hk (Nat.not_lt_zero k)⟩
  | case2 => cases h
  | case3 l t rest ih =>
    obtain ⟨ass, hrest, rfl⟩ := Option.map_eq_some_iff.1 h
    obtain ⟨hlength, hpairs⟩ := ih hrest
    have hhalf : (l :: t :: rest).length / 2 = rest.length / 2 + 1 := by
      simp only [List.length_cons]
      omega
    rw [hhalf]
    refine ⟨by rw [List.length_cons, hlength], fun k hk => ?_⟩
    cases k with
    | zero => exact ⟨l, t, rfl, rfl, rfl⟩
    | succ k => simpa [Nat.mul_add] using hpairs k (by omega)

private theorem eq_of_readFrom {w' : Word} (h : w.ReadFrom fs) (h' : w'.ReadFrom fs) : w = w' := by
  obtain ⟨form, selected⟩ := w
  obtain ⟨form', selected'⟩ := w'
  obtain rfl : form = form' := Option.some.inj (h.form.symm.trans h'.form)
  have hlength : selected.length = (fs.length - 1) / 2 := h.sequences
  have hlength' : selected'.length = (fs.length - 1) / 2 := h'.sequences
  congr 1
  refine List.ext_getElem (hlength.trans hlength'.symm) fun k hk hk' => ?_
  obtain ⟨l, t, hl, ht, hk₁⟩ := h.analyses k (hlength ▸ hk)
  obtain ⟨l', t', hl', ht', hk₂⟩ := h'.analyses k (hlength' ▸ hk')
  obtain rfl : l = l' := Option.some.inj (hl.symm.trans hl')
  obtain rfl : t = t' := Option.some.inj (ht.symm.trans ht')
  simpa [Word.analyses, List.getD_eq_getElem?_getD, hk, hk'] using hk₁.trans hk₂.symm

/-- A row of fields is read as its word. -/
theorem wordOfFields_eq_some_iff : wordOfFields fs = some w ↔ w.ReadFrom fs := by
  have hread {w : Word} (h : wordOfFields fs = some w) : w.ReadFrom fs := by
    have htagged : IsTagged fs := by
      by_contra hnot
      rw [wordOfFields_eq_none_iff.2 hnot] at h
      cases h
    unfold wordOfFields at h
    split at h
    · rename_i form l t rest
      obtain ⟨ass, hass, rfl⟩ := Option.map_eq_some_iff.1 h
      obtain ⟨hlength, hpairs⟩ := of_analysesOfFields hass
      refine ⟨htagged, rfl, hlength, fun k hk => ?_⟩
      obtain ⟨l', t', hl', ht', hk'⟩ := hpairs k hk
      exact ⟨l', t', hl', ht', by rw [Word.analyses, List.getD_eq_getElem?_getD, hk']; rfl⟩
    · cases h
  refine ⟨hread, fun h => ?_⟩
  cases hw : wordOfFields fs with
  | none => exact absurd h.isTagged (wordOfFields_eq_none_iff.1 hw)
  | some w' => rw [eq_of_readFrom (hread hw) h]

/-! ### Lines -/

/-- Holds of a line that has no fields or whose fields make up a word. -/
def InOrder (line : String) : Prop :=
  Text.fields line ≠ [] → IsTagged (Text.fields line)

/-- The rows of the lines that have fields. -/
def rowsOf (ls : List String) : List (List String) :=
  (ls.map Text.fields).filter (· ≠ [])

section Lines

variable {line : String} {ls : List String} {ws : List Word} {e : SentenceError}

private theorem rowsOf_cons_of_blank (h : Text.fields line = []) :
    rowsOf (line :: ls) = rowsOf ls := by
  simp [rowsOf, h]

private theorem rowsOf_cons (h : Text.fields line ≠ []) :
    rowsOf (line :: ls) = Text.fields line :: rowsOf ls := by
  simp [rowsOf, h]

theorem forall_mem_rowsOf_iff : (∀ fs ∈ rowsOf ls, IsTagged fs) ↔ ∀ line ∈ ls, InOrder line := by
  simp [rowsOf, InOrder]

theorem wordsOfLines_eq_ok_iff (number : Nat) :
    wordsOfLines number ls = .ok ws ↔ List.Forall₂ Word.ReadFrom ws (rowsOf ls) := by
  induction ls generalizing number ws with
  | nil => simp [wordsOfLines, rowsOf, eq_comm]
  | cons line ls ih =>
    rw [wordsOfLines]
    by_cases hblank : Text.fields line = []
    · rw [rowsOf_cons_of_blank hblank, ← ih (number + 1)]
      simp [hblank]
    · rw [rowsOf_cons hblank, List.forall₂_cons_right_iff]
      simp only [List.isEmpty_iff, hblank, if_false, ← wordOfFields_eq_some_iff,
        ← ih (number + 1)]
      cases wordOfFields (Text.fields line) with
      | none => simp
      | some w =>
        cases wordsOfLines (number + 1) ls with
        | error e => simp
        | ok ws' => simp [eq_comm]

private theorem wordsOfLines_cons_of_inOrder (h : InOrder line) (number : Nat) :
    wordsOfLines number (line :: ls) = .error e ↔ wordsOfLines (number + 1) ls = .error e := by
  rw [wordsOfLines]
  by_cases hblank : Text.fields line = []
  · simp [hblank]
  · obtain ⟨w, hw⟩ := Option.ne_none_iff_exists'.1
      (mt wordOfFields_eq_none_iff.1 (not_not_intro (h hblank)))
    simp only [List.isEmpty_iff, hblank, if_false, hw]
    cases wordsOfLines (number + 1) ls <;> simp

private theorem wordsOfLines_cons_of_not_inOrder (h : ¬ InOrder line) (number : Nat) :
    wordsOfLines number (line :: ls) = .error (.malformedLine number line) := by
  obtain ⟨hblank, htagged⟩ := Classical.not_imp.1 h
  rw [wordsOfLines]
  simp [hblank, wordOfFields_eq_none_iff.2 htagged]

/-- What is wrong with lines is the first of them that is not in order. -/
theorem wordsOfLines_eq_error_iff (number : Nat) :
    wordsOfLines number ls = .error e ↔ ∃ before line after, ls = before ++ line :: after ∧
      (∀ l ∈ before, InOrder l) ∧ ¬ InOrder line ∧
        e = .malformedLine (number + before.length) line := by
  induction ls generalizing number with
  | nil => simp [wordsOfLines]
  | cons l ls ih =>
    by_cases hl : InOrder l
    · rw [wordsOfLines_cons_of_inOrder hl, ih]
      constructor
      · rintro ⟨before, line, after, rfl, hbefore, hline, rfl⟩
        refine ⟨l :: before, line, after, rfl, List.forall_mem_cons.2 ⟨hl, hbefore⟩, hline, ?_⟩
        rw [List.length_cons, Nat.add_right_comm, Nat.add_assoc]
      · rintro ⟨_ | ⟨l', before⟩, line, after, hsplit, hbefore, hline, rfl⟩
        · obtain ⟨rfl, -⟩ := List.cons_eq_cons.1 hsplit
          exact absurd hl hline
        · obtain ⟨rfl, rfl⟩ := List.cons_eq_cons.1 hsplit
          refine ⟨before, line, after, rfl, (List.forall_mem_cons.1 hbefore).2, hline, ?_⟩
          rw [List.length_cons, Nat.add_right_comm, Nat.add_assoc]
    · rw [wordsOfLines_cons_of_not_inOrder hl]
      constructor
      · intro h
        obtain rfl := Except.error.inj h
        exact ⟨[], l, ls, rfl, fun _ h => absurd h List.not_mem_nil, hl, rfl⟩
      · rintro ⟨_ | ⟨l', before⟩, line, after, hsplit, hbefore, hline, rfl⟩
        · obtain ⟨rfl, -⟩ := List.cons_eq_cons.1 hsplit
          rfl
        · obtain ⟨rfl, -⟩ := List.cons_eq_cons.1 hsplit
          exact absurd (hbefore l List.mem_cons_self) hl

end Lines

/-! ### Words -/

section Words

variable {id : String} {ws : List Word}

theorem ofWords_eq_ok_iff {s : Sentence} :
    ofWords id ws = .ok s ↔ (∀ w ∈ ws, ∀ w' ∈ ws, w.sequences = w'.sequences) ∧
      s = ⟨id, ws, List.replicate ((ws.head?.map Word.sequences).getD 0) none⟩ := by
  have hagree : ws.find? (·.sequences != (ws.head?.map Word.sequences).getD 0) = none ↔
      ∀ w ∈ ws, ∀ w' ∈ ws, w.sequences = w'.sequences := by
    cases ws with
    | nil => simp
    | cons first rest =>
      simp only [List.find?_eq_none, List.head?_cons, Option.map_some, Option.getD_some,
        bne_iff_ne, ne_eq, not_not]
      exact ⟨fun h w hw w' hw' => (h w hw).trans (h w' hw').symm,
        fun h w hw => h w hw first List.mem_cons_self⟩
  rw [ofWords, ← hagree]
  cases ws.find? (·.sequences != (ws.head?.map Word.sequences).getD 0) <;> simp [eq_comm]

/-- Words are rejected for the first of them that disagrees with the first word. -/
theorem ofWords_eq_error_iff {e : SentenceError} :
    ofWords id ws = .error e ↔ ∃ first before w after, ws = first :: (before ++ w :: after) ∧
      (∀ w' ∈ before, w'.sequences = first.sequences) ∧ w.sequences ≠ first.sequences ∧
      e = .unevenSequences w.form w.sequences first.sequences := by
  cases ws with
  | nil => simp [ofWords]
  | cons first rest =>
    have hfind : ofWords id (first :: rest) = .error e ↔
        ∃ w, rest.find? (·.sequences != first.sequences) = some w ∧
          e = .unevenSequences w.form w.sequences first.sequences := by
      simp only [ofWords, List.head?_cons, Option.map_some, Option.getD_some, List.find?_cons,
        bne_self_eq_false]
      cases rest.find? (·.sequences != first.sequences) <;> simp [eq_comm]
    rw [hfind]
    simp only [List.find?_eq_some_iff_append, bne_iff_ne, Bool.not_eq_true', bne_eq_false_iff_eq]
    constructor
    · rintro ⟨w, ⟨hw, before, after, rfl, hbefore⟩, rfl⟩
      exact ⟨first, before, w, after, rfl, hbefore, hw, rfl⟩
    · rintro ⟨first', before, w, after, hsplit, hbefore, hw, rfl⟩
      obtain ⟨rfl, rfl⟩ := List.cons_eq_cons.1 hsplit
      exact ⟨w, ⟨hw, before, after, rfl, hbefore⟩, rfl⟩

end Words

/-! ### Tagged texts -/

section Tagged

variable {id text : String} {ws : List Word}

theorem ofTagged_eq_ok_iff {s : Sentence} :
    ofTagged id text = .ok s ↔
      ∃ ws, List.Forall₂ Word.ReadFrom ws (rowsOf (Text.lines text)) ∧ ofWords id ws = .ok s := by
  simp only [ofTagged, ← wordsOfLines_eq_ok_iff 1]
  cases wordsOfLines 1 (Text.lines text) <;> simp

theorem ofTagged_eq_error_iff {e : SentenceError} :
    ofTagged id text = .error e ↔ wordsOfLines 1 (Text.lines text) = .error e ∨
      ∃ ws, List.Forall₂ Word.ReadFrom ws (rowsOf (Text.lines text)) ∧
        ofWords id ws = .error e := by
  simp only [ofTagged, ← wordsOfLines_eq_ok_iff 1]
  cases wordsOfLines 1 (Text.lines text) <;> simp

/-- Words agree on the number of tag sequences if and only if their rows have equally many
fields. -/
theorem sequences_eq_iff_length_eq {rows : List (List String)}
    (h : List.Forall₂ Word.ReadFrom ws rows) (hrows : ∀ fs ∈ rows, IsTagged fs) :
    (∀ w ∈ ws, ∀ w' ∈ ws, w.sequences = w'.sequences) ↔
      ∀ fs ∈ rows, ∀ fs' ∈ rows, fs.length = fs'.length := by
  have hmap : ws.map Word.sequences = rows.map fun fs => (fs.length - 1) / 2 :=
    List.forall₂_eq_eq_eq ▸ List.forall₂_map_left_iff.2
      (List.forall₂_map_right_iff.2 (h.imp fun _ _ hread => hread.sequences))
  have hwords : (∀ w ∈ ws, ∀ w' ∈ ws, w.sequences = w'.sequences) ↔
      ∀ n ∈ ws.map Word.sequences, ∀ n' ∈ ws.map Word.sequences, n = n' := by
    simp only [List.forall_mem_map]
  rw [hwords, hmap]
  simp only [List.forall_mem_map]
  refine forall₂_congr fun fs hfs => forall₂_congr fun fs' hfs' => ?_
  obtain ⟨hle, hodd⟩ := hrows fs hfs
  obtain ⟨hle', hodd'⟩ := hrows fs' hfs'
  omega

private theorem exists_forall₂_readFrom {ls : List String} (h : ∀ line ∈ ls, InOrder line) :
    ∃ ws, List.Forall₂ Word.ReadFrom ws (rowsOf ls) := by
  cases hread : wordsOfLines 1 ls with
  | ok ws => exact ⟨ws, (wordsOfLines_eq_ok_iff 1).1 hread⟩
  | error e =>
    obtain ⟨before, line, after, rfl, -, hline, -⟩ := (wordsOfLines_eq_error_iff 1).1 hread
    exact absurd (h line (List.mem_append_right before List.mem_cons_self)) hline

private theorem isTagged_of_forall₂ {rows : List (List String)}
    (h : List.Forall₂ Word.ReadFrom ws rows) : ∀ fs ∈ rows, IsTagged fs := by
  induction h with
  | nil => exact fun _ h => absurd h List.not_mem_nil
  | cons hread _ ih => exact List.forall_mem_cons.2 ⟨hread.isTagged, ih⟩

/-- The texts that are sentences. -/
theorem exists_ofTagged_eq_ok_iff :
    (∃ s, ofTagged id text = .ok s) ↔ (∀ fs ∈ rowsOf (Text.lines text), IsTagged fs) ∧
      ∀ fs ∈ rowsOf (Text.lines text), ∀ fs' ∈ rowsOf (Text.lines text),
        fs.length = fs'.length := by
  constructor
  · rintro ⟨s, hs⟩
    obtain ⟨ws, hread, hws⟩ := ofTagged_eq_ok_iff.1 hs
    have htagged := isTagged_of_forall₂ hread
    exact ⟨htagged, (sequences_eq_iff_length_eq hread htagged).1 (ofWords_eq_ok_iff.1 hws).1⟩
  · rintro ⟨htagged, hlength⟩
    obtain ⟨ws, hread⟩ := exists_forall₂_readFrom (forall_mem_rowsOf_iff.1 htagged)
    exact ⟨_, ofTagged_eq_ok_iff.2 ⟨ws, hread,
      ofWords_eq_ok_iff.2 ⟨(sequences_eq_iff_length_eq hread htagged).2 hlength, rfl⟩⟩⟩

theorem readFrom_of_ofTagged {s : Sentence} (h : ofTagged id text = .ok s) :
    s.id = id ∧ List.Forall₂ Word.ReadFrom s.words (rowsOf (Text.lines text)) ∧
      s.trees = List.replicate s.sequences none := by
  obtain ⟨ws, hread, hws⟩ := ofTagged_eq_ok_iff.1 h
  obtain ⟨-, rfl⟩ := ofWords_eq_ok_iff.1 hws
  exact ⟨rfl, hread, rfl⟩

theorem ofTagged_eq_malformedLine_iff {number : Nat} {line : String} :
    ofTagged id text = .error (.malformedLine number line) ↔
      ∃ before after, Text.lines text = before ++ line :: after ∧ (∀ l ∈ before, InOrder l) ∧
        ¬ InOrder line ∧ number = before.length + 1 := by
  rw [ofTagged_eq_error_iff, wordsOfLines_eq_error_iff]
  constructor
  · rintro (⟨before, line', after, hlines, hbefore, hline, heq⟩ | ⟨ws, -, hws⟩)
    · obtain ⟨rfl, rfl⟩ := SentenceError.malformedLine.inj heq
      exact ⟨before, after, hlines, hbefore, hline, Nat.add_comm 1 before.length⟩
    · obtain ⟨first, before, w, after, -, -, -, heq⟩ := ofWords_eq_error_iff.1 hws
      cases heq
  · rintro ⟨before, after, hlines, hbefore, hline, rfl⟩
    exact .inl ⟨before, line, after, hlines, hbefore, hline, by rw [Nat.add_comm]⟩

theorem ofTagged_eq_unevenSequences_iff {form : String} {found expected : Nat} :
    ofTagged id text = .error (.unevenSequences form found expected) ↔
      ∃ first before w after,
        List.Forall₂ Word.ReadFrom (first :: (before ++ w :: after)) (rowsOf (Text.lines text)) ∧
        (∀ w' ∈ before, w'.sequences = first.sequences) ∧ w.sequences ≠ first.sequences ∧
        form = w.form ∧ found = w.sequences ∧ expected = first.sequences := by
  rw [ofTagged_eq_error_iff, wordsOfLines_eq_error_iff]
  constructor
  · rintro (⟨before, line, after, -, -, -, heq⟩ | ⟨ws, hread, hws⟩)
    · cases heq
    · obtain ⟨first, before, w, after, rfl, hbefore, hw, heq⟩ := ofWords_eq_error_iff.1 hws
      exact ⟨first, before, w, after, hread, hbefore, hw, SentenceError.unevenSequences.inj heq⟩
  · rintro ⟨first, before, w, after, hread, hbefore, hw, rfl, rfl, rfl⟩
    exact .inr ⟨_, hread, ofWords_eq_error_iff.2 ⟨first, before, w, after, rfl, hbefore, hw, rfl⟩⟩

end Tagged

/-! ### Written words -/

/-- The fields in which a word is written: its form, and the lemmas and tags of its analyses. -/
def wordFields (w : Word) : List String :=
  w.form :: w.selected.flatMap (·.flatMap fun a => [a.lemmaForm, a.tag])

/-- The lines in which words are written, with any blanks around the fields and any blank lines
between the words. -/
inductive WrittenIn : List Word → List String → Prop where
  | nil : WrittenIn [] []
  | blank {line : String} {ls : List String} {ws : List Word} (hline : '\n' ∉ line.toList)
      (hblank : Text.isBlankText line) (h : WrittenIn ws ls) : WrittenIn ws (line :: ls)
  | word {line : String} {ls : List String} {w : Word} {ws : List Word}
      (hline : '\n' ∉ line.toList)
      (hspells : Text.Spells ((wordFields w).map String.toList) line.toList)
      (h : WrittenIn ws ls) : WrittenIn (w :: ws) (line :: ls)

/-- Holds of a word with one analysis under each tag sequence. -/
def IsSingle (w : Word) : Prop :=
  ∀ as ∈ w.selected, as.length = 1

private theorem analysesOfFields_flatMap {ass : List (List Analysis)}
    (h : ∀ as ∈ ass, as.length = 1) :
    analysesOfFields (ass.flatMap (·.flatMap fun a => [a.lemmaForm, a.tag])) = some ass := by
  induction ass with
  | nil => rfl
  | cons as ass ih =>
    obtain ⟨has, hass⟩ := List.forall_mem_cons.1 h
    obtain ⟨a, rfl⟩ := List.length_eq_one_iff.1 has
    exact Option.map_eq_some_iff.2 ⟨ass, ih hass, rfl⟩

theorem readFrom_wordFields {w : Word} (hw : IsSingle w) (hpos : 1 ≤ w.sequences) :
    w.ReadFrom (wordFields w) := by
  rw [← wordOfFields_eq_some_iff]
  obtain ⟨form, selected⟩ := w
  cases selected with
  | nil => exact absurd hpos (Nat.not_succ_le_zero 0)
  | cons as ass =>
    have hread := analysesOfFields_flatMap hw
    obtain ⟨a, rfl⟩ := List.length_eq_one_iff.1 (hw as List.mem_cons_self)
    exact Option.map_eq_some_iff.2 ⟨_, hread, rfl⟩

namespace WrittenIn

variable {ws : List Word} {ls : List String}

theorem newline_not_mem (h : WrittenIn ws ls) : ∀ line ∈ ls, '\n' ∉ line.toList := by
  induction h with
  | nil => exact fun _ h => absurd h List.not_mem_nil
  | blank hline _ _ ih => exact List.forall_mem_cons.2 ⟨hline, ih⟩
  | word hline _ _ ih => exact List.forall_mem_cons.2 ⟨hline, ih⟩

theorem forall₂_readFrom (h : WrittenIn ws ls) (hws : ∀ w ∈ ws, IsSingle w ∧ 1 ≤ w.sequences) :
    List.Forall₂ Word.ReadFrom ws (rowsOf ls) := by
  induction h with
  | nil => exact .nil
  | blank _ hblank _ ih =>
    rw [rowsOf_cons_of_blank (Text.fields_eq_nil_iff.2 hblank)]
    exact ih hws
  | word _ hspells _ ih =>
    obtain ⟨hw, hws⟩ := List.forall_mem_cons.1 hws
    have hfields := Text.fields_eq_iff.2 hspells
    rw [rowsOf_cons (hfields ▸ List.cons_ne_nil _ _), hfields]
    exact .cons (readFrom_wordFields hw.1 hw.2) (ih hws)

/-- Words that agree are a sentence again when the lines in which they are written are read. -/
theorem exists_ofTagged_eq (h : WrittenIn ws ls) (id : String) {n : Nat} (hn : 1 ≤ n)
    (hws : ∀ w ∈ ws, IsSingle w ∧ w.sequences = n) :
    ∃ s, ofTagged id ("\n".intercalate ls) = .ok s ∧ s.words = ws := by
  have hrows : rowsOf (Text.lines ("\n".intercalate ls)) = rowsOf ls :=
    Text.filter_rows_intercalate h.newline_not_mem
  have hread := h.forall₂_readFrom fun w hw => ⟨(hws w hw).1, (hws w hw).2 ▸ hn⟩
  have hagree : ∀ w ∈ ws, ∀ w' ∈ ws, w.sequences = w'.sequences := fun w hw w' hw' =>
    (hws w hw).2.trans (hws w' hw').2.symm
  exact ⟨_, ofTagged_eq_ok_iff.2 ⟨ws, hrows ▸ hread, ofWords_eq_ok_iff.2 ⟨hagree, rfl⟩⟩, rfl⟩

end WrittenIn

/-- **Tagged texts.** A text is a sentence if and only if every line with fields has an odd number
of them, at least three, and all such lines have equally many. Then the words are those of the
lines with fields, in order. Otherwise, the first line that is not in order is reported, if there is
one, by its number among all lines; if there is none, the first word that disagrees with the first
one on the number of tag sequences. Words with one analysis under each tag sequence, equally many of
them and at least one, are read back from any lines in which they are written. -/
theorem ofTagged_spec (id text : String) :
    let rows := rowsOf (Text.lines text)
    ((∃ s, ofTagged id text = .ok s) ↔
      (∀ fs ∈ rows, IsTagged fs) ∧ ∀ fs ∈ rows, ∀ fs' ∈ rows, fs.length = fs'.length) ∧
    (∀ s, ofTagged id text = .ok s → s.id = id ∧ List.Forall₂ Word.ReadFrom s.words rows ∧
      s.trees = List.replicate s.sequences none) ∧
    (∀ number line, ofTagged id text = .error (.malformedLine number line) ↔
      ∃ before after, Text.lines text = before ++ line :: after ∧ (∀ l ∈ before, InOrder l) ∧
        ¬ InOrder line ∧ number = before.length + 1) ∧
    (∀ form found expected, ofTagged id text = .error (.unevenSequences form found expected) ↔
      ∃ first before w after,
        List.Forall₂ Word.ReadFrom (first :: (before ++ w :: after)) rows ∧
        (∀ w' ∈ before, w'.sequences = first.sequences) ∧ w.sequences ≠ first.sequences ∧
        form = w.form ∧ found = w.sequences ∧ expected = first.sequences) ∧
    ∀ ws ls n, 1 ≤ n → (∀ w ∈ ws, IsSingle w ∧ w.sequences = n) → WrittenIn ws ls →
      text = "\n".intercalate ls → ∃ s, ofTagged id text = .ok s ∧ s.words = ws := by
  intro rows
  refine ⟨exists_ofTagged_eq_ok_iff, fun s => readFrom_of_ofTagged,
    fun number line => ofTagged_eq_malformedLine_iff,
    fun form found expected => ofTagged_eq_unevenSequences_iff, ?_⟩
  rintro ws ls n hn hws hwritten rfl
  exact hwritten.exists_ofTagged_eq id hn hws

/-- Two words with two tag sequences, in wide gaps and with a blank line between them, and a line
that is reported although an earlier word disagrees on the number of tag sequences. -/
theorem ofTagged_spec_of_wide_gaps :
    let ws : List Word := [⟨"the", [[⟨"the", "DT"⟩], [⟨"the", "NN"⟩]]⟩,
      ⟨"cat", [[⟨"cat", "NN"⟩], [⟨"cat", "VB"⟩]]⟩]
    let ls := ["", "\tthe  the DT\u00a0the NN \r", " ", "cat cat NN cat VB"]
    WrittenIn ws ls ∧ (∃ s, ofTagged "1" ("\n".intercalate ls) = .ok s ∧ s.words = ws) ∧
      ofTagged "1" "the the DT\n\ncat cat NN cat VB\nsees see\n" =
        .error (.malformedLine 4 "sees see") := by
  intro ws ls
  have hwritten : WrittenIn ws ls := by
    refine .blank (by decide) (by decide) (.word (by decide) (Text.fields_eq_iff.1 ?_)
      (.blank (by decide) (by decide) (.word (by decide) (Text.fields_eq_iff.1 ?_) .nil)))
    · decide
    · decide
  refine ⟨hwritten, ?_, ?_⟩
  · obtain ⟨-, -, -, -, hread⟩ := ofTagged_spec "1" ("\n".intercalate ls)
    refine hread ws ls 2 (by decide) ?_ hwritten rfl
    simp [ws, IsSingle, Word.sequences]
  · obtain ⟨-, -, hmalformed, -⟩ :=
      ofTagged_spec "1" "the the DT\n\ncat cat NN cat VB\nsees see\n"
    refine (hmalformed 4 "sees see").2 ⟨["the the DT", "", "cat cat NN cat VB"], [], by decide,
      ?_, ?_, rfl⟩
    · simp only [List.forall_mem_cons, InOrder, IsTagged]
      refine ⟨?_, ?_, ?_, fun _ h => absurd h List.not_mem_nil⟩ <;> decide
    · rw [InOrder, IsTagged]
      decide

end Sentence

end Chunker
