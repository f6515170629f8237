import Chunker.Chart.Reuse
import Chunker.Proofs.Chart.AddedRoot

/-!
# Charts that are used again

A chart that is used again behaves as a new one. To load a sentence leaves nothing of what the chart
held. To parse a chart a second time reads only the bottom row, which the first time has left as
it was loaded: above it the cells are written before they are read, and an added root, which stands
in the top cell, stands in the bottom row only if there is a single word, and then none is
added. So no root is ever added twice, and a chart is at any time as it was made, or as it is
after the last sentence was loaded, or as it is after this sentence was loaded and parsed once.

## Main definitions

* `Chart.lastLoaded?` : the tag sequence that was loaded last.
* `Chart.Stage` : the charts that several calls lead to.

## Main results

* `Chart.reload_eq_load` : a chart that is loaded again is as one loaded for the first time.
* `Chart.parse_parsed` : to parse a second time changes nothing.
* `Chart.stage_run` : what a chart is after several calls.
* `Chart.call_parse_run_load` : the last of several parses of a used chart.
-/

namespace Chunker.Chart

variable {g : RuleSet} {s : Sentence} {k : Nat} {chart : Chart}

/-! ### Loading again -/

theorem isFull_clear (chart : Chart) (n : Nat) : (chart.clear n).IsFull := by
  rw [IsFull, clear, Array.size_replicate]

theorem cell_clear (chart : Chart) (n : Nat) (c : Coord) : (chart.clear n).cell c = [] := by
  simp only [cell, clear, Array.getD_eq_getD_getElem?, Array.getElem?_replicate]
  split <;> rfl

theorem size_seedFrom (j : Nat) (ws : List Word) :
    (chart.seedFrom g k j ws).size = chart.size := by
  induction ws generalizing chart j with
  | nil => rfl
  | cons w ws ih => rw [seedFrom, ih, size_put]

theorem IsFull.seedFrom (h : chart.IsFull) (j : Nat) (ws : List Word) :
    (chart.seedFrom g k j ws).IsFull := by
  induction ws generalizing chart j with
  | nil => exact h
  | cons w ws ih => exact ih (h.put _ _) (j + 1)

theorem cell_seedFrom_of_not_mem {j : Nat} {ws : List Word} {c : Coord}
    (hj : j + ws.length ≤ chart.size) (hc : c.within chart.size)
    (h : 0 < c.span ∨ c.start < j) : (chart.seedFrom g k j ws).cell c = chart.cell c := by
  induction ws generalizing chart j with
  | nil => rfl
  | cons w ws ih =>
    rw [List.length_cons] at hj
    have hne : c ≠ ⟨0, j⟩ := by
      rintro rfl
      exact h.elim (lt_irrefl 0) (lt_irrefl j)
    have hwithin : (⟨0, j⟩ : Coord).within chart.size :=
      Coord.within_iff_stop.2 (show j < chart.size by omega)
    have hj' : j + 1 + ws.length ≤ (chart.put ⟨0, j⟩ (seeds g k w ⟨0, j⟩)).size := by
      rw [size_put, Nat.succ_add]
      exact hj
    rw [seedFrom, ih hj' hc (h.imp_right Nat.lt_succ_of_lt), cell_put_of_ne hwithin hc hne]

theorem cell_seedFrom {j i : Nat} {ws : List Word} {w : Word} (hf : chart.IsFull)
    (hj : j + ws.length ≤ chart.size) (hw : ws[i]? = some w) :
    (chart.seedFrom g k j ws).cell ⟨0, j + i⟩ = seeds g k w ⟨0, j + i⟩ := by
  induction ws generalizing chart j i with
  | nil => cases hw
  | cons w' ws ih =>
    rw [List.length_cons] at hj
    have hwithin : (⟨0, j⟩ : Coord).within chart.size :=
      Coord.within_iff_stop.2 (show j < chart.size by omega)
    have hj' : j + 1 + ws.length ≤ (chart.put ⟨0, j⟩ (seeds g k w' ⟨0, j⟩)).size := by
      rw [size_put, Nat.succ_add]
      exact hj
    rw [seedFrom]
    cases i with
    | zero =>
      obtain rfl := Option.some.inj hw
      have hfirst : j + 0 = j := Nat.add_zero j
      rw [hfirst, cell_seedFrom_of_not_mem hj' hwithin (.inr (Nat.lt_succ_self j)),
        cell_put_self hf hwithin]
    | succ i =>
      have hnext : j + (i + 1) = j + 1 + i := by omega
      rw [hnext]
      exact ih (hf.put _ _) hj' hw

/-- Nothing is left of what a chart held before a sentence was loaded. -/
theorem reload_eq_load (g : RuleSet) (chart : Chart) (s : Sentence) (k : Nat) :
    chart.reload g s k = load g s k := by
  have hsize : (chart.reload g s k).size = s.size := size_seedFrom 0 s.words
  have hclear : 0 + s.words.length ≤ (chart.clear s.size).size := (Nat.zero_add _).le
  refine eq_of_cell_eq ((isFull_clear chart s.size).seedFrom 0 s.words) (isFull_load g s k)
    hsize fun c hc => ?_
  rw [hsize] at hc
  rcases Nat.eq_zero_or_pos c.span with hspan | hspan
  · obtain ⟨-, hstart⟩ := Coord.within_iff.1 hc
    obtain ⟨_, j⟩ := c
    obtain rfl := hspan
    have hw : s.words[j]? = some s.words[j] := List.getElem?_eq_getElem hstart
    rw [cell_load hw, reload]
    simpa only [Nat.zero_add] using
      cell_seedFrom (g := g) (k := k) (isFull_clear chart s.size) hclear hw
  · rw [reload, cell_seedFrom_of_not_mem hclear hc (.inl hspan), cell_clear,
      cell_load_of_span_pos hc hspan]

/-! ### Parsing again -/

theorem cell_parse_of_span_eq_zero (h : g.WellFormed) {c : Coord} (hc : c.within s.size)
    (hspan : c.span = 0) : (parsed g s k).cell c = (load g s k).cell c := by
  rw [parsed, cell_parse (isFull_load g s k) hc, cell_fill_of_span_eq_zero hc hspan]
  split
  · rename_i htop
    have hsize : s.size = 1 := by
      have hlt := (Coord.within_iff.1 hc).1
      simp only [htop, top, size_load] at hspan hlt
      omega
    rw [addedRoot?_eq_none_of_size_eq_one h hsize, Option.toList_none, List.append_nil]
  · exact List.append_nil _

/-- To parse a second time has the same outcome and leaves the same chart. -/
theorem parse_parsed (h : g.WellFormed) (s : Sentence) (k : Nat) :
    (parsed g s k).parse g = (load g s k).parse g := by
  by_cases hnil : s.words = []
  · rw [parsed, parse_eq_of_words_eq_nil hnil]
    exact parse_eq_of_words_eq_nil hnil
  · have hsize : (load g s k).size ≠ 0 := mt size_load_eq_zero_iff.1 hnil
    have hsame : (parsed g s k).size = (load g s k).size := size_parse g _
    refine parse_congr hsame ?_ (hsame ▸ hsize)
    refine fill_congr (isFull_load g s k).parse (isFull_load g s k) hsame fun c hc => ?_
    rw [hsame] at hc
    exact cell_parse_of_span_eq_zero h hc

/-! ### Several calls -/

/-- The tag sequence of a sentence that a call loads. -/
def Call.loaded? : Call → Option (Sentence × Nat)
  | load s k => some (s, k)
  | parse => none

/-- The tag sequence that was loaded last. -/
def lastLoaded? (calls : List Call) : Option (Sentence × Nat) :=
  (calls.filterMap Call.loaded?).getLast?

/-- Holds of the charts that calls lead to, by the tag sequence that was loaded last: the chart as
it was made, as it is after loading, and as it is after loading and parsing. -/
inductive Stage (g : RuleSet) : Option (Sentence × Nat) → Chart → Prop
  | fresh : Stage g none {}
  | loaded (s : Sentence) (k : Nat) : Stage g (some (s, k)) (load g s k)
  | parsed (s : Sentence) (k : Nat) : Stage g (some (s, k)) (parsed g s k)

theorem lastLoaded?_append (calls : List Call) (c : Call) :
    lastLoaded? (calls ++ [c]) = c.loaded?.or (lastLoaded? calls) := by
  rw [lastLoaded?, List.filterMap_append, List.getLast?_append]
  cases c <;> rfl

theorem run_append (chart : Chart) (calls calls' : List Call) :
    chart.run g (calls ++ calls') = (chart.run g calls).run g calls' :=
  List.foldl_append

theorem Stage.call {last : Option (Sentence × Nat)} (h : g.WellFormed)
    (hstage : Stage g last chart) (c : Call) :
    Stage g (c.loaded?.or last) (chart.call g c).2 := by
  cases c with
  | load s k =>
    rw [Chart.call, reload_eq_load]
    exact .loaded s k
  | parse =>
    cases hstage with
    | fresh => exact .fresh
    | loaded s k => exact .parsed s k
    | parsed s k =>
      rw [Chart.call, parse_parsed h]
      exact .parsed s k

/-- After any calls, a chart is as it was made, or it is the chart of the tag sequence that was
loaded last, before or after it is parsed. -/
theorem stage_run (h : g.WellFormed) (calls : List Call) :
    Stage g (lastLoaded? calls) (run g {} calls) := by
  induction calls using List.reverseRecOn with
  | nil => exact .fresh
  | append_singleton calls c ih =>
    rw [lastLoaded?_append, run_append]
    exact ih.call h c

/-- The chart of a tag sequence has one outcome, whether or not it was parsed before. -/
theorem Stage.parse_eq (h : g.WellFormed) (hstage : Stage g (some (s, k)) chart) :
    chart.parse g = (load g s k).parse g := by
  cases hstage with
  | loaded => rfl
  | parsed => exact parse_parsed h s k

/-- The last of several parses of a sentence, on a chart that has been used before, has the
outcome of the first parse on a new chart and leaves the same chart. -/
theorem call_parse_run_load (h : g.Loaded) (calls : List Call) (s : Sentence) (k m : Nat) :
    (run g {} (calls ++ .load s k :: List.replicate m .parse)).call g .parse =
      (run g {} [.load s k]).call g .parse := by
  have hlast : lastLoaded? (calls ++ .load s k :: List.replicate m .parse) = some (s, k) := by
    have hparses : (List.replicate m Call.parse).filterMap Call.loaded? = [] :=
      List.filterMap_replicate_of_none rfl
    have hloaded : Call.loaded? (.load s k) = some (s, k) := rfl
    rw [lastLoaded?, List.filterMap_append, List.filterMap_cons_some hloaded, hparses,
      List.getLast?_append]
    rfl
  have hstage := stage_run h.wellFormed (calls ++ .load s k :: List.replicate m .parse)
  rw [hlast] at hstage
  have hnew := stage_run h.wellFormed [.load s k]
  rw [call, call, hstage.parse_eq h.wellFormed, Stage.parse_eq h.wellFormed hnew]

/-- A chart is loaded and parsed, and its root is forced; after another sentence this is done again,
with three parses. The top cell then holds one root. -/
theorem call_parse_run_load_of_forced_root :
    let g := RuleSet.ofText "a ==> DT, +NN . @NOTOP a . @START S ."
    let s : Sentence := ⟨"", [.tagged "the" "the" "DT", .tagged "cat" "cat" "NN"], []⟩
    let s' : Sentence := ⟨"", [.tagged "dogs" "dog" "NNS"], []⟩
    let calls : List Call := [.load s 0, .parse, .load s' 0, .parse, .parse]
    let used := run g {} (calls ++ .load s 0 :: List.replicate 2 .parse)
    g.Loaded ∧ (used.call g .parse).1 = .ok () ∧
      (used.call g .parse).2.cell ⟨1, 0⟩ =
        [⟨⟨"a", ["DT", "NN"], some 1⟩, [⟨0, 0⟩, ⟨0, 1⟩]⟩, ⟨⟨"S", ["a"], none⟩, [⟨1, 0⟩]⟩] := by
  intro g s s' calls used
  have hg : g.Loaded := RuleSet.loaded_ofText (by decide +kernel)
  have hused : used.call g .parse = (run g {} [.load s 0]).call g .parse :=
    call_parse_run_load hg calls s 0 2
  rw [hused]
  exact ⟨hg, by decide +kernel, by decide +kernel⟩

end Chunker.Chart
