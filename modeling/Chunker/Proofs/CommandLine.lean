import Chunker.CommandLine
import Chunker.Proofs.Chunking.Ending
import Chunker.Proofs.Text.Lines

/-!
# Sentences are written independently

What is written for a sentence depends on the fields of its lines: neither the number of the
sentence nor the ends of its lines can be seen in it. The sentences of an input are the stretches
of lines with fields. A blank line between two inputs ends the last sentence of the first one, so
the sentences of the joined input are those of the first input and then those of the second. Each
of them is written as it would be written alone, or skipped as it would be skipped alone.

## Main definitions

* `Sentence.ofRows` : the sentence of rows of fields.
* `CommandLine.rowsText` : what is written for the sentence of rows of fields.
* `CommandLine.paragraphs` : the stretches of rows with fields.
* `CommandLine.Ends` : the inputs on which the work ends.

## Main results

* `CommandLine.sentenceText_eq` : what is written for a sentence depends on the fields.
* `CommandLine.map_rows_blocks` : the sentences of an input by their fields.
* `CommandLine.ends_append`, `CommandLine.stdout_run_append` : the work on two inputs with a blank
  line between them, and its output.
-/

namespace Chunker

/-! ### Sentences by their fields -/

namespace Sentence

/-- The sentence with another identifier. -/
def withId (s : Sentence) (id : String) : Sentence :=
  { s with id := id }

/-- The words of rows of fields. Rows without fields are skipped. -/
def wordsOfRows (rs : List (List String)) : Option (List Word) :=
  (rs.filter (!·.isEmpty)).mapM wordOfFields

/-- The sentence of rows of fields, without an identifier. -/
def ofRows (rs : List (List String)) : Option Sentence :=
  (wordsOfRows rs).bind fun ws => (ofWords "" ws).toOption

theorem toOption_wordsOfLines (number : Nat) (ls : List String) :
    (wordsOfLines number ls).toOption = wordsOfRows (ls.map Text.fields) := by
  induction ls generalizing number with
  | nil => rfl
  | cons line ls ih =>
    rw [wordsOfLines, wordsOfRows, List.map_cons, List.filter_cons]
    cases hempty : (Text.fields line).isEmpty with
    | true => exact ih (number + 1)
    | false =>
      simp only [Bool.false_eq_true, if_false, Bool.not_false, if_true, List.mapM_cons]
      have htail := ih (number + 1)
      rw [wordsOfRows] at htail
      rw [← htail]
      cases wordOfFields (Text.fields line) with
      | none => rfl
      | some w => cases wordsOfLines (number + 1) ls <;> rfl

theorem toOption_ofWords (id : String) (ws : List Word) :
    (ofWords id ws).toOption = (ofWords "" ws).toOption.map (·.withId id) := by
  rw [ofWords, ofWords]
  split <;> rfl

/-- A tagged text is a sentence if its fields make up one, and then it is that sentence. -/
theorem toOption_ofTagged (id text : String) :
    (ofTagged id text).toOption = (ofRows (Text.rows text)).map (·.withId id) := by
  rw [ofRows, Text.rows, ← toOption_wordsOfLines 1, ofTagged]
  cases wordsOfLines 1 (Text.lines text) with
  | error e => rfl
  | ok ws => exact toOption_ofWords id ws

end Sentence

/-! ### The text of trees -/

/-- The identifier of a sentence cannot be seen in the text of its trees. -/
theorem RuleSet.map_text_chunkSequence_withId (g : RuleSet) (s : Sentence) (id : String)
    (k : Nat) :
    (g.chunkSequence (s.withId id) k).1.map Tree.text =
      (g.chunkSequence s k).1.map Tree.text := by
  have hchart : Chart.parsed g (s.withId id) k = Chart.parsed g s k := rfl
  have houtcome : ((Chart.load g (s.withId id) k).parse g).1 = ((Chart.load g s k).parse g).1 :=
    rfl
  rw [chunkSequence_fst, chunkSequence_fst, hchart, houtcome]
  split
  · rfl
  · split
    · rfl
    · rename_i t ht
      have hsize : (s.withId id).size = s.size := rfl
      rw [Sentence.bindTree, Sentence.bindTree, hsize]
      split
      · rfl
      · simp only [Except.map, Tree.text_numbered]
        rfl

namespace CommandLine

variable {g : RuleSet} {showChart : Bool}

theorem treesText_eq (g : RuleSet) (s : Sentence) :
    treesText g s =
      match (g.chunk s).result with
      | .error _ => ""
      | .ok () => String.join ((List.range (g.chunk s).sentence.sequences).map
          (treeText (g.chunk s).sentence)) := by
  rw [treesText]
  obtain ⟨result, s', ws⟩ := g.chunk s
  cases result <;> rfl

theorem treeText_of_tree? {s : Sentence} {k : Nat} {t : Tree} (h : s.tree? k = some t) :
    treeText s k =
      (if 1 < s.sequences then "sequence " ++ toString k ++ ":\n" else "") ++ t.text ++ "\n\n" := by
  rw [treeText, h]

theorem treesText_withId (g : RuleSet) (s : Sentence) (id : String) :
    treesText g (s.withId id) = treesText g s := by
  have hsequences : (s.withId id).sequences = s.sequences := rfl
  obtain ⟨m, hm⟩ := g.exists_chunkedUpTo s
  obtain ⟨m', hm'⟩ := g.exists_chunkedUpTo (s.withId id)
  -- A sequence has a tree under both identifiers or under neither.
  have hsame (k : Nat) := g.map_text_chunkSequence_withId s id k
  rw [treesText_eq, treesText_eq]
  rcases hm.outcome with ⟨hok, rfl⟩ | ⟨e, herror, hlt, he⟩
  · rcases hm'.outcome with ⟨hok', hall⟩ | ⟨e', -, hlt', he'⟩
    · rw [hok, hok', hm.sequences, hm'.sequences, hsequences]
      dsimp only
      congr 1
      refine List.map_congr_left fun k hk => ?_
      have hk : k < s.sequences := List.mem_range.1 hk
      obtain ⟨t, ht, -, htree⟩ := hm.tree k hk
      obtain ⟨t', ht', -, htree'⟩ := hm'.tree k (by omega)
      have htext := hsame k
      rw [ht, ht'] at htext
      have htext : t'.text = t.text := Except.ok.inj htext
      rw [treeText_of_tree? htree, treeText_of_tree? htree', hm.sequences, hm'.sequences,
        hsequences, htext]
    · obtain ⟨t, ht, -⟩ := hm.tree m' hlt'
      have htext := hsame m'
      rw [ht, he'] at htext
      cases htext
  · rcases hm'.outcome with ⟨hok', hall⟩ | ⟨e', herror', -, -⟩
    · obtain ⟨t', ht', -⟩ := hm'.tree m (by omega)
      have htext := hsame m
      rw [he, ht'] at htext
      cases htext
    · rw [herror, herror']

/-- What is written for rows of fields: the chart, if it is asked for, and the trees. -/
def rowsText (g : RuleSet) (showChart : Bool) (rs : List (List String)) : String :=
  match Sentence.ofRows rs with
  | none => ""
  | some s =>
    if s.isEmpty then ""
    else if showChart then
      match (Chart.load g s 0).parse g with
      | (.error _, _) => ""
      | (.ok (), chart) => "chart:\n" ++ chart.text ++ "\n" ++ treesText g s
    else treesText g s

/-- What is written for a sentence depends on the fields of its lines only, and not on its number.
-/
theorem sentenceText_eq (number : Nat) (text : String) :
    sentenceText g showChart number text = rowsText g showChart (Text.rows text) := by
  have hread := Sentence.toOption_ofTagged (toString number) text
  rw [sentenceText, rowsText]
  cases hs : Sentence.ofRows (Text.rows text) with
  | none =>
    rw [hs] at hread
    cases htagged : Sentence.ofTagged (toString number) text with
    | ok s => rw [htagged] at hread; cases hread
    | error e => rfl
  | some s =>
    rw [hs] at hread
    cases htagged : Sentence.ofTagged (toString number) text with
    | error e => rw [htagged] at hread; cases hread
    | ok r =>
      rw [htagged] at hread
      obtain rfl : r = s.withId (toString number) := Option.some.inj hread
      simp only [treesText_withId]
      rfl

/-! ### Paragraphs -/

/-- The stretches of rows with fields, in order. -/
def paragraphs (rs : List (List String)) : List (List (List String)) :=
  (rs.splitOnP List.isEmpty).filter (!·.isEmpty)

/-- A row without fields divides rows into those before it and those after it. -/
theorem paragraphs_append_cons (rs rs' : List (List String)) :
    paragraphs (rs ++ [] :: rs') = paragraphs rs ++ paragraphs rs' := by
  rw [paragraphs, List.splitOnP_append_cons rs rs' rfl, List.filter_append, paragraphs, paragraphs]

theorem paragraphs_append_replicate (rs : List (List String)) (n : Nat) :
    paragraphs (rs ++ List.replicate n []) = paragraphs rs := by
  induction n with
  | zero => rw [List.replicate_zero, List.append_nil]
  | succ n ih =>
    rw [List.replicate_succ', ← List.append_assoc, paragraphs_append_cons, ih]
    exact List.append_nil _

theorem paragraphs_of_forall {rs : List (List String)} (hne : rs ≠ []) (h : ∀ r ∈ rs, r ≠ []) :
    paragraphs rs = [rs] := by
  rw [paragraphs, List.splitOnP_eq_singleton (by simpa using h), List.filter_cons_of_pos]
  · rfl
  · simpa using hne

/-! ### The sentences of an input -/

/-- The text of several lines, each with its newline. -/
def linesText (ls : List String) : String :=
  String.join (ls.map (· ++ "\n"))

theorem linesText_cons (l : String) (ls : List String) :
    linesText (l :: ls) = l ++ "\n" ++ linesText ls := by
  rw [linesText, List.map_cons, String.join_cons, linesText]

theorem linesText_concat (ls : List String) (l : String) :
    linesText (ls ++ [l]) = linesText ls ++ l ++ "\n" := by
  induction ls with
  | nil => simp [linesText]
  | cons l' ls ih =>
    rw [List.cons_append, linesText_cons, ih, linesText_cons]
    simp only [String.append_assoc]

theorem isEmpty_linesText (ls : List String) : (linesText ls).isEmpty = ls.isEmpty := by
  cases ls with
  | nil => rfl
  | cons l ls => simp [linesText_cons, ← Bool.not_eq_true]

theorem rows_linesText {ls : List String} (h : ∀ l ∈ ls, '\n' ∉ l.toList) :
    Text.rows (linesText ls) = ls.map Text.fields := by
  induction ls with
  | nil => rfl
  | cons l ls ih =>
    rw [List.forall_mem_cons] at h
    rw [linesText_cons, Text.rows_line h.1, ih h.2, List.map_cons]

/-- The sentences that have been gathered, with the one that no blank line ends. -/
private def closed (gathered : List String × String) : List String :=
  if gathered.2.isEmpty then gathered.1 else gathered.1 ++ [gathered.2]

private theorem closed_gather_of_blank {line : String} (h : Text.isBlankText line = true)
    (pending : String) (ls : List String) :
    closed (gather pending (line :: ls)) =
      (if pending.isEmpty then [] else [pending]) ++ closed (gather "" ls) := by
  rw [gather, if_pos h]
  obtain ⟨found, last⟩ := gather "" ls
  simp only [closed]
  cases pending.isEmpty <;> cases last.isEmpty <;> rfl

private theorem paragraphs_map_fields {ps : List String} (hps : ∀ p ∈ ps, Text.fields p ≠ [])
    (h : ∀ p ∈ ps, '\n' ∉ p.toList) :
    paragraphs (ps.map Text.fields) =
      (if (linesText ps).isEmpty then [] else [linesText ps]).map Text.rows := by
  rw [isEmpty_linesText]
  cases ps with
  | nil => rfl
  | cons p ps =>
    rw [paragraphs_of_forall (by simp) (by simpa using hps), ← rows_linesText h]
    rfl

/-- The sentences among the lines are the stretches of lines with fields. -/
private theorem map_rows_closed_gather {ps ls : List String} (hps : ∀ p ∈ ps, Text.fields p ≠ [])
    (hpsn : ∀ p ∈ ps, '\n' ∉ p.toList) (hlsn : ∀ l ∈ ls, '\n' ∉ l.toList) :
    (closed (gather (linesText ps) ls)).map Text.rows =
      paragraphs ((ps ++ ls).map Text.fields) := by
  -- Induction on the lines that are left, with those that are pending in front.
  induction ls generalizing ps with
  | nil =>
    rw [List.append_nil, paragraphs_map_fields hps hpsn, gather, closed]
    cases (linesText ps).isEmpty <;> rfl
  | cons l ls ih =>
    obtain ⟨hl, hlsn⟩ := List.forall_mem_cons.1 hlsn
    cases hblank : Text.isBlankText l with
    | true =>
      have hrest := @ih [] (by simp) (by simp) hlsn
      rw [closed_gather_of_blank hblank, List.map_append, List.map_append, List.map_cons,
        Text.fields_eq_nil_iff.2 hblank, paragraphs_append_cons, paragraphs_map_fields hps hpsn]
      exact congrArg _ hrest
    | false =>
      have hfields : Text.fields l ≠ [] := fun hnil => by
        rw [Text.fields_eq_nil_iff.1 hnil] at hblank
        cases hblank
      have hps' : ∀ p ∈ ps ++ [l], Text.fields p ≠ [] :=
        List.forall_mem_append.2 ⟨hps, List.forall_mem_singleton.2 hfields⟩
      have hpsn' : ∀ p ∈ ps ++ [l], '\n' ∉ p.toList :=
        List.forall_mem_append.2 ⟨hpsn, List.forall_mem_singleton.2 hl⟩
      rw [gather, if_neg (by simp [hblank]), ← linesText_concat, List.append_cons ps l ls]
      exact ih hps' hpsn' hlsn

/-- The sentences of an input, by the fields of their lines. -/
theorem map_rows_blocks (text : String) :
    (blocks (Input.ofText text)).map Text.rows = paragraphs (Text.rows text) :=
  @map_rows_closed_gather [] _ (by simp) (by simp) fun _ hl =>
    Text.newline_not_mem_of_mem_lines hl

/-- The sentences of two inputs with a blank line between them are those of the first input and
those of the second. -/
theorem map_rows_blocks_append (a b : String) :
    (blocks (Input.ofText (a ++ "\n\n" ++ b))).map Text.rows =
      (blocks (Input.ofText a)).map Text.rows ++ (blocks (Input.ofText b)).map Text.rows := by
  obtain ⟨n, hn⟩ := Text.rows_append_blank_line a b
  rw [map_rows_blocks, map_rows_blocks, map_rows_blocks, hn, paragraphs_append_cons,
    paragraphs_append_replicate]

/-! ### The output -/

/-- What is written for the sentences of an input is written for the fields of each of them. -/
theorem sentencesText_eq (input : Input) :
    sentencesText g showChart input =
      String.join (((blocks input).map Text.rows).map (rowsText g showChart)) := by
  rw [sentencesText, List.map_map]
  congr 1
  refine List.ext_getElem? fun i => ?_
  rw [List.getElem?_mapIdx, List.getElem?_map]
  exact congrArg (Option.map · (blocks input)[i]?) (funext fun _ => sentenceText_eq (i + 1) _)

theorem sentencesText_append (g : RuleSet) (showChart : Bool) (a b : String) :
    sentencesText g showChart (Input.ofText (a ++ "\n\n" ++ b)) =
      sentencesText g showChart (Input.ofText a) ++ sentencesText g showChart (Input.ofText b) := by
  rw [sentencesText_eq, sentencesText_eq, sentencesText_eq, map_rows_blocks_append, List.map_append,
    String.join_append]

theorem Input.ofBytes_toUTF8 (text : String) : Input.ofBytes text.toUTF8 = Input.ofText text := by
  have hdecode : String.fromUTF8? text.toUTF8 = some text := dif_pos text.isValidUTF8
  rw [Input.ofBytes, hdecode]

theorem run_toUTF8 {program path : String} {args : List String} {source : Source}
    {grammar : Grammar} (hargs : readArguments none false args = .ok (.chunk path showChart))
    (hgrammar : Grammar.ofFile source path = .ok grammar) (text : String) :
    run program args source (Input.ofBytes text.toUTF8) =
      ⟨0, sentencesText grammar.rules showChart (Input.ofText text), ""⟩ := by
  rw [run, hargs, Input.ofBytes_toUTF8]
  simp only [runChunk, hgrammar]
  rfl

/-! ### The end of the work -/

/-- Holds of a text if the work on each of its sentences ends, whatever its number. -/
def Ends (g : RuleSet) (text : String) : Prop :=
  ∀ block ∈ blocks (Input.ofText text), ∀ id s,
    Sentence.ofTagged id block = .ok s → g.ChunkingEnds s

theorem ends_iff {text : String} :
    Ends g text ↔ ∀ rs ∈ (blocks (Input.ofText text)).map Text.rows, ∀ id s,
      Sentence.ofRows rs = some s → g.ChunkingEnds (s.withId id) := by
  rw [List.forall_mem_map]
  refine forall₂_congr fun block _ => forall_congr' fun id => ?_
  have hread := Sentence.toOption_ofTagged id block
  constructor
  · intro h s hs
    rw [hs] at hread
    cases htagged : Sentence.ofTagged id block with
    | error e =>
      rw [htagged] at hread
      cases hread
    | ok s' =>
      rw [htagged] at hread
      obtain rfl : s' = s.withId id := Option.some.inj hread
      exact h _ htagged
  · intro h s htagged
    rw [htagged] at hread
    obtain ⟨s', hs', rfl⟩ := Option.map_eq_some_iff.1 hread.symm
    exact h s' hs'

/-- The work on two inputs with a blank line between them ends if and only if it ends on both. -/
theorem ends_append (g : RuleSet) (a b : String) :
    Ends g (a ++ "\n\n" ++ b) ↔ Ends g a ∧ Ends g b := by
  rw [ends_iff, ends_iff, ends_iff, map_rows_blocks_append, List.forall_mem_append]

/-- The output for two inputs with a blank line between them is the output for the first and then
that for the second, and all goes well for each of the three. If the work on a sentence does not
end, it counts as one that is skipped; `ends_append` says when there is none. -/
theorem stdout_run_append {program path : String} {args : List String} {source : Source}
    {grammar : Grammar} (hargs : readArguments none false args = .ok (.chunk path showChart))
    (hgrammar : Grammar.ofFile source path = .ok grammar) (a b : String) :
    let out (text : String) := run program args source (Input.ofBytes text.toUTF8)
    (out (a ++ "\n\n" ++ b)).stdout = (out a).stdout ++ (out b).stdout ∧
      (out (a ++ "\n\n" ++ b)).exit = 0 ∧ (out a).exit = 0 ∧ (out b).exit = 0 := by
  dsimp only
  rw [run_toUTF8 hargs hgrammar, run_toUTF8 hargs hgrammar, run_toUTF8 hargs hgrammar]
  dsimp only
  exact ⟨sentencesText_append grammar.rules showChart a b, rfl, rfl, rfl⟩

/-- A sentence whose last line has no newline, and behind a blank line one that is skipped and one
that is not. -/
theorem stdout_run_append_of_skipped_sentence :
    let source : Source := fun _ => .ok "np ==> DT, +NN . @START S ."
    let out (text : String) := run "chunker" ["-c", "chunks"] source (Input.ofBytes text.toUTF8)
    let a := "the the DT\ncat cat NN\r"
    let b := " \ncat cat\n\nruns run VB\n"
    let forA := "chart:\nCell (0,0):\n  DT → ・   backpath:\n" ++
      "  np → DT ・ NN   backpath: (0,0)\n  DT(the) → ・   backpath:\n" ++
      "  DT<the> → ・   backpath:\nCell (0,1):\n  NN → ・   backpath:\n" ++
      "  NN(cat) → ・   backpath:\n  NN<cat> → ・   backpath:\nCell (1,0):\n" ++
      "  np → DT NN ・   backpath: (0,0) (0,1)\n\nnp_[\n  DT(the)\n  +NN(cat)\n]\n\n"
    let forB := "chart:\nCell (0,0):\n  VB → ・   backpath:\n  VB(runs) → ・   backpath:\n" ++
      "  VB<run> → ・   backpath:\n\nVB(runs)\n\n"
    readArguments none false ["-c", "chunks"] = .ok (.chunk "chunks" true) ∧
      (∃ grammar, Grammar.ofFile source "chunks" = .ok grammar) ∧
      (out (a ++ "\n\n" ++ b)).stdout = (out a).stdout ++ (out b).stdout ∧
      (out (a ++ "\n\n" ++ b)).exit = 0 ∧ (out a).exit = 0 ∧ (out b).exit = 0 ∧
      (out a).stdout = forA ∧ (out b).stdout = forB := by
  intro source out a b forA forB
  have hargs : readArguments none false ["-c", "chunks"] = .ok (.chunk "chunks" true) := by
    decide
  have hwritten : (Grammar.ofFile source "chunks").toOption.map (fun grammar =>
      (sentencesText grammar.rules true (Input.ofText a),
        sentencesText grammar.rules true (Input.ofText b))) = some (forA, forB) := by
    decide +kernel
  obtain ⟨grammar, hgrammar, htexts⟩ := exists_eq_ok_of_map_toOption hwritten
  obtain ⟨ha, hb⟩ := Prod.mk.inj htexts
  have hstdout (text : String) :
      (out text).stdout = sentencesText grammar.rules true (Input.ofText text) :=
    congrArg Outcome.stdout (run_toUTF8 hargs hgrammar text)
  obtain ⟨happend, hexit, hexita, hexitb⟩ := stdout_run_append hargs hgrammar a b
  exact ⟨hargs, ⟨grammar, hgrammar⟩, happend, hexit, hexita, hexitb, (hstdout a).trans ha,
    (hstdout b).trans hb⟩

end CommandLine

end Chunker
