import Chunker.Proofs.Chart.Derivability

/-!
# Words without analyses

Under a tag sequence a word may be left without any analysis. Nothing is derivable of a stretch
with such a word, whatever the rules are, so no edge of a filled chart spans it. A word with an
analysis has a complete edge by itself. Hence a cover of a sentence is found if and only if all of
its words have analyses, and otherwise the words that the error names are the first that have none.

Parsing fails for no other reason, apart from a sentence without words. A failure leaves the filled
chart as it is.

## Main definitions

* `Sentence.IsAnalysed` : the words with an analysis.

## Main results

* `Chart.isAnalysed_of_mem_cell_fill` : an edge spans words with analyses only.
* `Chart.parse_load_eq_ok_iff` : which sentences are parsed.
* `Chart.parse_load_eq_error_iff` : when parsing fails, with which error, and what it leaves.
-/

namespace Chunker

/-- Holds of a word with an analysis under a tag sequence. -/
def Sentence.IsAnalysed (s : Sentence) (k j : Nat) : Prop :=
  ∃ w, s.words[j]? = some w ∧ w.analyses k ≠ []

instance (s : Sentence) (k j : Nat) : Decidable (s.IsAnalysed k j) :=
  decidable_of_iff (∃ w ∈ s.words[j]?, w.analyses k ≠ []) Iff.rfl

theorem Sentence.forall_isAnalysed_iff {s : Sentence} {k : Nat} :
    (∀ j < s.size, s.IsAnalysed k j) ↔ ∀ w ∈ s.words, w.analyses k ≠ [] := by
  constructor
  · intro h w hw
    obtain ⟨j, hj⟩ := List.mem_iff_getElem?.1 hw
    obtain ⟨w', hw', ha⟩ := h j (List.getElem?_eq_some_iff.1 hj).1
    exact Option.some.inj (hj.symm.trans hw') ▸ ha
  · exact fun h j hj => ⟨_, List.getElem?_eq_getElem hj, h _ (List.getElem_mem hj)⟩

/-- Whatever is derivable, is derivable of words with analyses. -/
theorem RuleSet.Derivable.isAnalysed {g : RuleSet} {s : Sentence} {k : Nat} {c : Coord} {x : Item}
    (h : g.Derivable s k c x) : ∀ j, c.start ≤ j → j < c.stop → s.IsAnalysed k j := by
  induction h with
  | @seed i x h =>
    obtain ⟨w, hw, a, ha, -⟩ := h
    intro j hj hj'
    obtain rfl : i = j := Nat.le_antisymm hj (Nat.le_of_lt_succ hj')
    exact ⟨w, hw, List.ne_nil_of_mem ha⟩
  | start _ _ _ _ ih => exact ih
  | @extend a b i _ _ _ _ _ _ _ _ ihr ihx =>
    intro j hj hj'
    simp only [Coord.stop] at ihr ihx hj'
    rcases Nat.lt_or_ge j (i + a + 1) with hlt | hge
    · exact ihr j hj hlt
    · exact ihx j hge (by omega)
  | finish _ ih => exact ih

namespace Chart

variable {g : RuleSet} {s : Sentence} {k : Nat} {chart : Chart} {c : Coord}

/-! ### Edges over words -/

/-- An edge of a filled chart spans words with analyses only. -/
theorem isAnalysed_of_mem_cell_fill (h : g.WellFormed) (hc : c.within s.size) {e : Edge}
    (he : e ∈ ((load g s k).fill g).cell c) :
    ∀ j, c.start ≤ j → j < c.stop → s.IsAnalysed k j := by
  rcases sound_of_mem_cell_fill h hc he with ⟨_, -, hx⟩ | ⟨-, hr⟩
  · exact hx.isAnalysed
  · exact hr.isAnalysed

theorem isAnalysed_of_complete_fill (h : g.WellFormed) (hc : c.within s.size)
    (hne : ((load g s k).fill g).complete c ≠ []) :
    ∀ j, c.start ≤ j → j < c.stop → s.IsAnalysed k j := by
  obtain ⟨e, he⟩ := List.exists_mem_of_ne_nil _ hne
  exact isAnalysed_of_mem_cell_fill h hc (List.mem_filter.1 he).1

theorem complete_fill_ne_nil_of_isAnalysed {j : Nat} (h : s.IsAnalysed k j) :
    ((load g s k).fill g).complete ⟨0, j⟩ ≠ [] := by
  obtain ⟨w, hw, hne⟩ := h
  obtain ⟨a, as, has⟩ := List.exists_cons_of_ne_nil hne
  have hoffer : s.Offers k j a.tag := ⟨w, hw, a, has ▸ List.mem_cons_self, .inl rfl⟩
  have hc : (⟨0, j⟩ : Coord).within s.size :=
    Coord.within_iff_stop.2 (List.getElem?_eq_some_iff.1 hw).1
  have hmem := mem_cell_of_enters hc (Enters.offered (g := g) rfl hoffer)
  exact List.ne_nil_of_mem (List.mem_filter.2 ⟨hmem, Edge.isComplete_lexical a.tag⟩)

/-! ### Success -/

/-- A root in the top cell, or one that is added to it, spans words with analyses only. -/
theorem isAnalysed_of_parse_eq_ok (h : g.WellFormed) (hok : ((load g s k).parse g).1 = .ok ()) :
    ∀ j < s.size, s.IsAnalysed k j := by
  obtain ⟨hsize, hroot⟩ := parse_ok_iff.1 hok
  intro j hj
  rcases hroot with hroot | hadded
  · obtain ⟨e, he⟩ := Option.isSome_iff_exists.1 hroot
    have hmem := (List.mem_filter.1 (RuleSet.mem_of_best? he)).1
    have htop := isAnalysed_of_complete_fill h (c := (load g s k).top) (within_top hsize)
      (List.ne_nil_of_mem (top_fill g (load g s k) ▸ hmem))
    exact htop j (Nat.zero_le j) ((stop_top hsize).symm ▸ hj)
  · obtain ⟨e, he⟩ := Option.isSome_iff_exists.1 hadded
    obtain ⟨-, -, cs, -, hcover, -⟩ := addedRoot?_eq_some he
    obtain ⟨hcs, hne⟩ := consecutive_of_cover (Nat.zero_le _) hcover
    obtain ⟨c, hc, hcj, hcj'⟩ := hcs.exists_mem (Nat.zero_le j) hj
    have hin : c.within s.size := Coord.within_iff_stop.2 (hcs.bounds hc).2
    exact isAnalysed_of_complete_fill h hin (hne c hc) j hcj hcj'

/-- A sentence is parsed if and only if it has words and all of them have analyses. -/
theorem parse_load_eq_ok_iff (h : g.WellFormed) :
    ((load g s k).parse g).1 = .ok () ↔ s.words ≠ [] ∧ ∀ w ∈ s.words, w.analyses k ≠ [] := by
  constructor
  · intro hok
    exact ⟨mt size_load_eq_zero_iff.2 (parse_ok_iff.1 hok).1,
      Sentence.forall_isAnalysed_iff.1 (isAnalysed_of_parse_eq_ok h hok)⟩
  · rintro ⟨hne, hwords⟩
    exact parse_eq_ok (mt size_load_eq_zero_iff.1 hne) fun j hj =>
      complete_fill_ne_nil_of_isAnalysed (Sentence.forall_isAnalysed_iff.2 hwords j hj)

/-! ### Failures -/

theorem parse_eq_of_words_eq_nil (h : s.words = []) :
    (load g s k).parse g = (.error .emptySentence, load g s k) := by
  rw [parse, if_pos (size_load_eq_zero_iff.2 h)]

/-- The error is that there is no word, or it names the first words that have no analysis. -/
theorem parse_load_eq_error_cases (h : g.WellFormed) {err : ParseError}
    (herr : ((load g s k).parse g).1 = .error err) :
    s.words = [] ∧ err = .emptySentence ∨
      s.words ≠ [] ∧ ∃ r, err = .uncovered r ∧ FirstGap (s.IsAnalysed k) 0 s.size r := by
  by_cases hne : s.words = []
  · rw [parse_eq_of_words_eq_nil hne] at herr
    exact .inl ⟨hne, (Except.error.inj herr).symm⟩
  · have hsize : (load g s k).size ≠ 0 := mt size_load_eq_zero_iff.1 hne
    refine .inr ⟨hne, exists_firstGap_of_cover_eq_error (fun j _ _ => ?_)
      (fun c hc hcomplete => ?_) (parse_eq_error hsize herr).1⟩
    · exact complete_fill_ne_nil_of_isAnalysed
    · exact isAnalysed_of_complete_fill h (Coord.within_iff_stop.2 hc.2) hcomplete

theorem cell_parse_of_eq_error {err : ParseError} (hc : c.within s.size)
    (herr : ((load g s k).parse g).1 = .error err) :
    (parsed g s k).cell c = ((load g s k).fill g).cell c := by
  have hsize : (load g s k).size ≠ 0 := fun hsize => by
    have hlt := (Coord.within_iff.1 hc).1
    rw [← size_load g s k, hsize] at hlt
    exact Nat.not_lt_zero _ hlt
  rw [parsed, (parse_eq_error hsize herr).2]

/-- When parsing fails, and what the error names. A sentence without words and a word without
analyses are the only reasons. The error for a sentence with words names the first words without
analyses, as many as stand next to one another, by their number less one and the position of the
first. A failure leaves the bottom row as it was loaded, and no edge without a governor in any
cell. -/
theorem parse_load_eq_error_iff (h : g.Loaded) (s : Sentence) (k : Nat) :
    ((∃ err, ((load g s k).parse g).1 = .error err) ↔
        s.words = [] ∨ ∃ w ∈ s.words, w.analyses k = []) ∧
      (((load g s k).parse g).1 = .error .emptySentence ↔ s.words = []) ∧
      (∀ r, ((load g s k).parse g).1 = .error (.uncovered r) ↔
        FirstGap (s.IsAnalysed k) 0 s.size r) ∧
      ((load g s k).parse g).1 ≠ .error .coverWithoutEdge ∧
      ((load g s k).parse g).1 ≠ .error .coverTooLong ∧
      ∀ err, ((load g s k).parse g).1 = .error err → ∀ c : Coord, c.within s.size →
        (c.span = 0 → (parsed g s k).cell c = (load g s k).cell c) ∧
          ∀ e ∈ (parsed g s k).cell c, e.rule.governor ≠ none := by
  have hfails : (∃ err, ((load g s k).parse g).1 = .error err) ↔
      ¬ ((load g s k).parse g).1 = .ok () := by
    cases ((load g s k).parse g).1 <;> simp
  have hcases {err : ParseError} (herr : ((load g s k).parse g).1 = .error err) :=
    parse_load_eq_error_cases h.wellFormed herr
  refine ⟨?_, ⟨fun herr => ?_, fun hnil => ?_⟩, fun r => ⟨fun herr => ?_, fun hgap => ?_⟩,
    fun herr => ?_, fun herr => ?_, fun err herr c hc => ⟨fun hspan => ?_, fun e he => ?_⟩⟩
  · rw [hfails, parse_load_eq_ok_iff h.wellFormed, not_and_or, not_not]
    simp only [not_forall, not_not, exists_prop]
  · rcases hcases herr with ⟨hnil, -⟩ | ⟨-, r, hr, -⟩
    · exact hnil
    · cases hr
  · rw [parse_eq_of_words_eq_nil hnil]
  · rcases hcases herr with ⟨-, hr⟩ | ⟨-, r', hr, hgap⟩
    · cases hr
    · exact ParseError.uncovered.inj hr ▸ hgap
  · have hstart : r.start < s.size := r.start_lt_stop.trans_le hgap.between.2
    obtain ⟨err, herr⟩ := hfails.2 fun hok =>
      hgap.inside r.start le_rfl r.start_lt_stop
        (isAnalysed_of_parse_eq_ok h.wellFormed hok _ hstart)
    rcases hcases herr with ⟨hnil, -⟩ | ⟨-, r', rfl, hgap'⟩
    · rw [Sentence.size, hnil] at hstart
      exact absurd hstart (Nat.not_lt_zero _)
    · rw [herr, hgap.unique hgap']
  · rcases hcases herr with ⟨-, hr⟩ | ⟨-, r, hr, -⟩ <;> cases hr
  · rcases hcases herr with ⟨-, hr⟩ | ⟨-, r, hr, -⟩ <;> cases hr
  · rw [cell_parse_of_eq_error hc herr, cell_fill_of_span_eq_zero hc hspan]
  · rw [cell_parse_of_eq_error hc herr] at he
    exact governor_ne_none_of_mem_cell_fill h.wellFormed hc he

/-- Two words without analyses in a row, and one further on: the error names the two. -/
theorem parse_load_eq_error_of_gap :
    let g := RuleSet.ofText "a ==> DT, +NN . @START S ."
    let s : Sentence := ⟨"", [.tagged "the" "the" "DT", ⟨"x", [[]]⟩, ⟨"y", [[]]⟩,
      .tagged "cat" "cat" "NN", ⟨"z", [[]]⟩], []⟩
    g.Loaded ∧ ((load g s 0).parse g).1 = .error (.uncovered ⟨1, 1⟩) := by
  intro g s
  have hg : g.Loaded := RuleSet.loaded_ofText (by decide +kernel)
  refine ⟨hg, ((parse_load_eq_error_iff hg s 0).2.2.1 ⟨1, 1⟩).2 ?_⟩
  have hword : ∀ j < 5, s.IsAnalysed 0 j ↔ j = 0 ∨ j = 3 := by decide +kernel
  refine ⟨⟨Nat.zero_le 1, by decide⟩, fun j _ hj => ?_, fun j hj hj' hp => ?_, fun _ => ?_⟩
  · exact (hword j (hj.trans (by decide))).2 (.inl (Nat.lt_one_iff.1 hj))
  · have hj₁ : 1 ≤ j := hj
    have hj₃ : j < 3 := hj'
    have := (hword j (by omega)).1 hp
    omega
  · exact (hword 3 (by decide)).2 (.inr rfl)

end Chart

end Chunker
