import Chunker.Text.Lines
import Mathlib.Data.List.Basic

/-!
# Lines of joined texts

A text is a line without a newline, or a line, its newline and a further text. What a reader sees
of a line are its fields, and these do not tell whether a carriage return ended the line. So the
fields of two texts with a newline between them are those of the first text and those of the
second, but for a line without fields if the first text was at the end of a line already.

## Main definitions

* `Text.withoutReturn` : a line without a carriage return at its end.
* `Text.rows` : the fields of the lines of a text.

## Main results

* `Text.line_induction` : the induction along the lines of a text.
* `Text.rows_append_newline` : the fields of two texts with a newline between them.
* `Text.rows_append_blank_line` : the fields of two texts with a blank line between them.
-/

namespace Chunker.Text

/-! ### Lines -/

/-- A line without a carriage return at its end, if there is one. -/
def withoutReturn (l : List Char) : List Char :=
  if l.getLast? = some '\r' then l.dropLast else l

theorem withoutReturn_cons {c : Char} {l : List Char} (hl : l ≠ []) :
    withoutReturn (c :: l) = c :: withoutReturn l := by
  rw [withoutReturn, withoutReturn, List.getLast?_cons, List.dropLast_cons_of_ne_nil hl,
    List.getLast?_eq_some_getLast hl, Option.getD_some]
  split <;> rfl

theorem lineLists_newline (cs : List Char) : lineLists ('\n' :: cs) = [] :: lineLists cs := by
  rw [lineLists]
  · rw [if_pos rfl]
  · simp

theorem lineLists_cons {c : Char} {cs l : List Char} {ls : List (List Char)} (hc : c ≠ '\n')
    (hr : c = '\r' → cs.head? ≠ some '\n') (h : lineLists cs = l :: ls) :
    lineLists (c :: cs) = (c :: l) :: ls := by
  rw [lineLists]
  · rw [if_neg hc, h]
  · rintro cs' rfl rfl
    exact hr rfl rfl

/-- A line ends at its newline, and with it a carriage return. -/
theorem lineLists_append_newline {l : List Char} (hl : '\n' ∉ l) (rest : List Char) :
    lineLists (l ++ '\n' :: rest) = withoutReturn l :: lineLists rest := by
  induction l with
  | nil => exact lineLists_newline rest
  | cons c l ih =>
    obtain ⟨hc, hl⟩ := not_or.1 (mt List.mem_cons.2 hl)
    cases l with
    | nil =>
      by_cases hr : c = '\r'
      · subst hr
        rw [List.singleton_append, lineLists]
        rfl
      · rw [List.singleton_append, lineLists_cons (Ne.symm hc) (absurd · hr)
          (lineLists_newline rest), withoutReturn, if_neg (by simpa using hr)]
    | cons d l =>
      have hd : d ≠ '\n' := fun h => hl (h ▸ List.mem_cons_self)
      rw [List.cons_append, lineLists_cons (Ne.symm hc) (fun _ => by simpa using hd) (ih hl),
        withoutReturn_cons (List.cons_ne_nil d l)]

/-- A last line keeps what stands at its end. -/
theorem lineLists_of_not_mem {l : List Char} (hne : l ≠ []) (hl : '\n' ∉ l) :
    lineLists l = [l] := by
  induction l with
  | nil => exact absurd rfl hne
  | cons c l ih =>
    obtain ⟨hc, hl⟩ := not_or.1 (mt List.mem_cons.2 hl)
    cases l with
    | nil =>
      rw [lineLists, if_neg (Ne.symm hc)]
      · rfl
      · simp
    | cons d l =>
      have hd : d ≠ '\n' := fun h => hl (h ▸ List.mem_cons_self)
      exact lineLists_cons (Ne.symm hc) (fun _ => by simpa using hd)
        (ih (List.cons_ne_nil d l) hl)

/-- The induction along the lines of a text. -/
@[elab_as_elim]
theorem line_induction {P : List Char → Prop} (nil : P [])
    (last : ∀ l, l ≠ [] → '\n' ∉ l → P l)
    (line : ∀ l rest, '\n' ∉ l → P rest → P (l ++ '\n' :: rest)) (cs : List Char) : P cs := by
  induction hn : cs.length using Nat.strongRecOn generalizing cs with
  | _ n ih =>
    by_cases hmem : '\n' ∈ cs
    · obtain ⟨l, rest, rfl, hl⟩ := List.eq_append_cons_of_mem hmem
      rw [List.length_append, List.length_cons] at hn
      exact line l rest hl (ih rest.length (by omega) rest rfl)
    · by_cases hne : cs = []
      · exact hne ▸ nil
      · exact last cs hne hmem

theorem newline_not_mem_of_mem_lines {s line : String} (h : line ∈ lines s) :
    '\n' ∉ line.toList := by
  obtain ⟨l, hl, rfl⟩ := List.mem_map.1 h
  rw [String.toList_ofList]
  generalize s.toList = cs at hl
  induction cs using line_induction with
  | nil => exact absurd hl List.not_mem_nil
  | last l' hne hl' =>
    rw [lineLists_of_not_mem hne hl', List.mem_singleton] at hl
    exact hl ▸ hl'
  | line l' rest hl' ih =>
    rw [lineLists_append_newline hl', List.mem_cons] at hl
    rcases hl with rfl | hl
    · rw [withoutReturn]
      split
      · exact fun hmem => hl' (List.dropLast_subset l' hmem)
      · exact hl'
    · exact ih hl

/-! ### Fields -/

theorem fieldLists_append_blank (l : List Char) {c : Char} (hc : isBlank c) :
    fieldLists (l ++ [c]) = fieldLists l := by
  induction l with
  | nil => simp [fieldLists, hc]
  | cons d l ih =>
    cases l with
    | nil => simp [fieldLists, hc]
    | cons d' l =>
      rw [List.cons_append, List.cons_append, fieldLists.eq_def, fieldLists.eq_def (d :: d' :: l)]
      dsimp only
      rw [← List.cons_append, ih]
      cases fieldLists (d' :: l) <;> rfl

/-- The fields of a line do not tell whether a carriage return ended it. -/
theorem fieldLists_withoutReturn (l : List Char) : fieldLists (withoutReturn l) = fieldLists l := by
  rw [withoutReturn]
  split
  · rename_i h
    obtain ⟨l', rfl⟩ := List.getLast?_eq_some_iff.1 h
    rw [List.dropLast_concat, fieldLists_append_blank l' (by decide)]
  · rfl

theorem fields_eq_nil_iff {s : String} : fields s = [] ↔ isBlankText s = true := by
  rw [fields, isBlankText, List.map_eq_nil_iff]
  generalize s.toList = cs
  induction cs with
  | nil => simp [fieldLists]
  | cons c cs ih =>
    rw [fieldLists.eq_def, List.all_cons, Bool.and_eq_true, ← ih]
    dsimp only
    split
    · rename_i hc
      simp [hc]
    · rename_i hc
      simp only [hc, Bool.false_eq_true, false_and, iff_false]
      split
      · split <;> exact List.cons_ne_nil _ _
      · exact List.cons_ne_nil _ _

theorem isBlank_eq_false_of_mem_getLast?_trimEnd {s : String} {b : Char}
    (h : b ∈ (trimEnd s).toList.getLast?) : isBlank b = false := by
  rw [trimEnd, String.toList_ofList, List.getLast?_reverse] at h
  have hhead := List.head?_dropWhile_not isBlank s.toList.reverse
  rwa [Option.mem_def.1 h] at hhead

/-! ### Rows of fields -/

/-- The fields of the lines of a text. -/
def rows (s : String) : List (List String) :=
  (lines s).map fields

private theorem rows_eq (s : String) :
    rows s = (lineLists s.toList).map fun l => (fieldLists l).map String.ofList := by
  rw [rows, lines, List.map_map]
  exact List.map_congr_left fun l _ => by rw [Function.comp_apply, fields, String.toList_ofList]

/-- The row of a line stands in front of those of the text behind its newline. -/
theorem rows_line {line : String} (hline : '\n' ∉ line.toList) (rest : String) :
    rows (line ++ "\n" ++ rest) = fields line :: rows rest := by
  have htext : (line ++ "\n" ++ rest).toList = line.toList ++ '\n' :: rest.toList := by
    simp
  rw [rows_eq, rows_eq, htext, lineLists_append_newline hline, List.map_cons,
    fieldLists_withoutReturn, fields]

/-- The rows of two texts with a newline between them. If the first text is at the end of a line
already, the newline ends a line without fields. -/
theorem rows_append_newline (s t : String) :
    ∃ n, rows (s ++ "\n" ++ t) = rows s ++ List.replicate n [] ++ rows t := by
  have htext : (s ++ "\n" ++ t).toList = s.toList ++ '\n' :: t.toList := by simp
  rw [rows_eq, rows_eq, rows_eq, htext]
  generalize s.toList = cs
  generalize t.toList = ds
  induction cs using line_induction with
  | nil =>
    refine ⟨1, ?_⟩
    rw [List.nil_append, lineLists_newline]
    rfl
  | last l hne hl =>
    refine ⟨0, ?_⟩
    rw [lineLists_append_newline hl, lineLists_of_not_mem hne hl, List.map_cons,
      fieldLists_withoutReturn]
    rfl
  | line l rest hl ih =>
    obtain ⟨n, hn⟩ := ih
    refine ⟨n, ?_⟩
    rw [List.append_assoc, List.cons_append, lineLists_append_newline hl,
      lineLists_append_newline hl, List.map_cons, List.map_cons, hn]
    rfl

/-- The rows of two texts with a blank line between them. -/
theorem rows_append_blank_line (s t : String) :
    ∃ n, rows (s ++ "\n\n" ++ t) = rows s ++ List.replicate n [] ++ [] :: rows t := by
  obtain ⟨n, hn⟩ := rows_append_newline s ("" ++ "\n" ++ t)
  have hblank : rows ("" ++ "\n" ++ t) = [] :: rows t := rows_line (by decide) t
  have htext : s ++ "\n\n" ++ t = s ++ "\n" ++ ("" ++ "\n" ++ t) :=
    String.toList_injective (by simp)
  exact ⟨n, by rw [htext, hn, hblank]⟩

end Chunker.Text
