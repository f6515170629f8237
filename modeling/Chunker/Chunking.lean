import Chunker.Chart.Derivation
import Chunker.Chart.Parse

/-!
# Chunking of sentences

A sentence is chunked by giving it a tree for each of its tag sequences. For a sequence, a chart
is loaded and parsed, the tree of all words is taken from it, its leaves are bound to the words,
and its nodes are numbered. The first sequence that has no tree ends the work; the trees of the
sequences before it stay.

## Main definitions

* `ChunkError` : why a sequence has no tree.
* `Sentence.bindTree` : a tree matched with the words of a sentence.
* `RuleSet.chunkSequence` : the tree of one tag sequence.
* `RuleSet.chunk`, `RuleSet.chunkAll` : sentences with their trees.
-/

namespace Chunker

/-- The reasons why a tag sequence has no tree. Besides the errors of the chart and of the
extraction, a tree may have another number of leaves than there are words. -/
inductive ChunkError where
  | parse (e : ParseError)
  | tree (e : TreeError)
  | unevenLeaves (leaves words : Nat)
deriving DecidableEq

/-- The wording of an error. -/
def ChunkError.message : ChunkError → String
  | parse e => e.message
  | tree e => e.message
  | unevenLeaves leaves words =>
    "inconsistent chart: tree has " ++ toString leaves ++ " leaves for " ++ toString words ++
      " words"

/-- What chunking leaves: the sentence with the trees it has got, the outcome, and the warnings
on the way. -/
structure Chunked where
  result : Except ChunkError Unit
  sentence : Sentence
  warnings : List Warning

/-- The node with a word under a tag sequence: labelled with the tag, and bound to the word. -/
def Node.bindWord (k : Nat) (n : Node) (w : Word) : Node :=
  { n with label := w.tag k, word := some w }

/-- The tree with its leaves bound to the words of a sentence and its nodes numbered. There have
to be as many leaves as words. -/
def Sentence.bindTree (s : Sentence) (k : Nat) (t : Tree) : Except ChunkError Tree :=
  if t.frontier.length ≠ s.size then .error (.unevenLeaves t.frontier.length s.size)
  else .ok ((Tree.mapLeaves (Node.bindWord k) t s.words).1.numbered s.id)

namespace RuleSet

/-- The tree of a tag sequence of a sentence, with the warnings on the way. -/
def chunkSequence (g : RuleSet) (s : Sentence) (k : Nat) :
    Except ChunkError Tree × List Warning :=
  match (Chart.load g s k).parse g with
  | (.error e, _) => (.error (.parse e), [])
  | (.ok (), chart) =>
    match chart.extract g chart.top with
    | (.error e, warnings) => (.error (.tree e), warnings)
    | (.ok t, warnings) => (s.bindTree k t, warnings)

/-- The sentence with the trees of several tag sequences, up to the first that has none. -/
def chunkSequences (g : RuleSet) (s : Sentence) : List Nat → Chunked
  | [] => ⟨.ok (), s, []⟩
  | k :: ks =>
    match g.chunkSequence s k with
    | (.error e, warnings) => ⟨.error e, s, warnings⟩
    | (.ok t, warnings) =>
      let rest := chunkSequences g (s.setTree k t) ks
      { rest with warnings := warnings ++ rest.warnings }

/-- The sentence with the trees of its tag sequences. A sentence without words has none. -/
def chunk (g : RuleSet) (s : Sentence) : Chunked :=
  if s.isEmpty then ⟨.ok (), s, []⟩ else g.chunkSequences s (List.range s.sequences)

/-- The sentences with their trees, up to the first for which a tree is missing; those after it
are left alone. -/
def chunkAll (g : RuleSet) : List Sentence → Except ChunkError Unit × List Sentence
  | [] => (.ok (), [])
  | s :: ss =>
    match g.chunk s with
    | ⟨.error e, s, _⟩ => (.error e, s :: ss)
    | ⟨.ok (), s, _⟩ =>
      let (result, rest) := chunkAll g ss
      (result, s :: rest)

end RuleSet

end Chunker
