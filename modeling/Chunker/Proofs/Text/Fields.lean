import Chunker.Proofs.Text.Lines

/-!
# Fields of a line

A line spells fields if it consists of them, in order, with blanks around them and at least one
blank between any two. Every line spells its fields and no others, however wide the gaps are. In a
text whose lines are put together with newlines, blank lines can be seen by no reader of fields.

## Main definitions

* `Text.IsField` : what is no blank and not empty.
* `Text.Spells` : the lines that consist of given fields.

## Main results

* `Text.fields_eq_iff` : a line spells its fields and no others.
* `Text.filter_rows_intercalate` : the rows with fields of lines that are put together.
-/

namespace Chunker.Text

/-! ### Spelling -/

/-- Holds of characters that make up a field: there is one, and none is blank. -/
def IsField (f : List Char) : Prop :=
  f ≠ [] ∧ ∀ c ∈ f, isBlank c = false

/-- The lines that consist of given fields, with any blanks between and around them. -/
inductive Spells : List (List Char) → List Char → Prop where
  | nil {gap : List Char} (hgap : ∀ c ∈ gap, isBlank c) : Spells [] gap
  | cons {gap f s : List Char} {fs : List (List Char)} (hgap : ∀ c ∈ gap, isBlank c)
      (hf : IsField f) (hend : ∀ c ∈ s.head?, isBlank c) (h : Spells fs s) :
      Spells (f :: fs) (gap ++ f ++ s)

variable {s : List Char} {fs : List (List Char)}

private theorem fieldLists_gap_append {gap : List Char} (hgap : ∀ c ∈ gap, isBlank c)
    (s : List Char) : fieldLists (gap ++ s) = fieldLists s := by
  induction gap with
  | nil => rfl
  | cons c gap ih =>
    obtain ⟨hc, hgap⟩ := List.forall_mem_cons.1 hgap
    rw [List.cons_append, fieldLists.eq_def]
    simp only [hc, if_true]
    exact ih hgap

private theorem fieldLists_field_append {f : List Char} (hf : IsField f)
    (hend : ∀ c ∈ s.head?, isBlank c) : fieldLists (f ++ s) = f :: fieldLists s := by
  obtain ⟨hne, hf⟩ := hf
  induction f with
  | nil => exact absurd rfl hne
  | cons c f ih =>
    obtain ⟨hc, hf⟩ := List.forall_mem_cons.1 hf
    rw [List.cons_append, fieldLists.eq_def]
    simp only [hc, Bool.false_eq_true, if_false]
    cases f with
    | nil =>
      cases s with
      | nil => rfl
      | cons d s =>
        rw [List.nil_append]
        cases fieldLists (d :: s) with
        | nil => rfl
        | cons g gs => simp only [hend d rfl, if_true]
    | cons d f =>
      rw [ih (List.cons_ne_nil d f) hf, List.cons_append]
      simp only [hf d List.mem_cons_self, Bool.false_eq_true, if_false]

theorem Spells.fieldLists_eq (h : Spells fs s) : fieldLists s = fs := by
  induction h with
  | nil hgap => simpa [fieldLists] using fieldLists_gap_append hgap []
  | cons hgap hf hend _ ih =>
    rw [List.append_assoc, fieldLists_gap_append hgap, fieldLists_field_append hf hend, ih]

theorem Spells.blank_cons {c : Char} (hc : isBlank c) (h : Spells fs s) : Spells fs (c :: s) := by
  cases h with
  | nil hgap => exact .nil (List.forall_mem_cons.2 ⟨hc, hgap⟩)
  | cons hgap hf hend h => exact .cons (List.forall_mem_cons.2 ⟨hc, hgap⟩) hf hend h

theorem Spells.field_append {f : List Char} (hf : IsField f) (hend : ∀ c ∈ s.head?, isBlank c)
    (h : Spells fs s) : Spells (f :: fs) (f ++ s) := by
  have hgap : ∀ c ∈ ([] : List Char), isBlank c := fun c hc => absurd hc List.not_mem_nil
  exact .cons hgap hf hend h

/-- A character that is no blank may be put in front of a line that begins with a field. -/
theorem Spells.exists_cons {c : Char} (hc : isBlank c = false) (h : Spells fs s)
    (hnext : ∃ d ∈ s.head?, isBlank d = false) : ∃ fs', Spells fs' (c :: s) := by
  obtain ⟨d, hd, hblank⟩ := hnext
  cases h with
  | nil hgap =>
    rw [hgap d (List.mem_of_mem_head? hd)] at hblank
    cases hblank
  | @cons gap f s fs hgap hf hend h =>
    cases gap with
    | nil =>
      have hfield : IsField (c :: f) :=
        ⟨List.cons_ne_nil c f, List.forall_mem_cons.2 ⟨hc, hf.2⟩⟩
      exact ⟨(c :: f) :: fs, h.field_append hfield hend⟩
    | cons x gap =>
      obtain rfl : x = d := Option.some.inj hd
      rw [hgap x List.mem_cons_self] at hblank
      cases hblank

theorem exists_spells (s : List Char) : ∃ fs, Spells fs s := by
  induction s with
  | nil => exact ⟨[], .nil fun _ hc => absurd hc List.not_mem_nil⟩
  | cons c s ih =>
    obtain ⟨fs, h⟩ := ih
    by_cases hc : isBlank c
    · exact ⟨fs, h.blank_cons hc⟩
    · rw [Bool.not_eq_true] at hc
      by_cases hend : ∀ d ∈ s.head?, isBlank d
      · have hfield : IsField [c] := ⟨List.cons_ne_nil c [], List.forall_mem_singleton.2 hc⟩
        exact ⟨[c] :: fs, h.field_append hfield hend⟩
      · simp only [not_forall, Bool.not_eq_true, exists_prop] at hend
        exact h.exists_cons hc hend

theorem fieldLists_eq_iff : fieldLists s = fs ↔ Spells fs s := by
  refine ⟨fun h => ?_, Spells.fieldLists_eq⟩
  obtain ⟨fs', h'⟩ := exists_spells s
  rwa [← h, h'.fieldLists_eq]

/-- **A line spells its fields and no others.** -/
theorem fields_eq_iff {line : String} {fs : List String} :
    fields line = fs ↔ Spells (fs.map String.toList) line.toList := by
  rw [← fieldLists_eq_iff, fields]
  constructor
  · rintro rfl
    simp
  · intro h
    simp [h]

/-! ### Lines that are put together -/

/-- The rows with fields of lines that are put together. -/
theorem filter_rows_intercalate {ls : List String} (hls : ∀ l ∈ ls, '\n' ∉ l.toList) :
    (rows ("\n".intercalate ls)).filter (· ≠ []) = (ls.map fields).filter (· ≠ []) := by
  induction ls with
  | nil => rfl
  | cons l ls ih =>
    obtain ⟨hl, hls⟩ := List.forall_mem_cons.1 hls
    cases ls with
    | nil =>
      rw [String.intercalate_singleton]
      by_cases hne : l.toList = []
      · obtain rfl : l = "" := String.toList_eq_nil_iff.1 hne
        rfl
      · rw [rows, lines, lineLists_of_not_mem hne hl, List.map_singleton, String.ofList_toList]
    | cons l' ls =>
      rw [String.intercalate_cons_cons, rows_line hl, List.map_cons, List.filter_cons,
        List.filter_cons, ih hls]

end Chunker.Text
