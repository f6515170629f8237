import Chunker.Tree

/-!
# Sentences

A sentence is a list of words that agree on the number of tag sequences. For each sequence it
has room for a chunk tree.

A sentence is read from text with a word on each line: the form, then a lemma and a tag for
every tag sequence, separated by blanks. Lines without fields are skipped.

## Main definitions

* `Sentence` : the words and the trees.
* `Sentence.ofWords`, `Sentence.ofTagged` : a sentence from words and from text.
* `Sentence.setTree`, `Sentence.tree?` : the tree of a sequence.
* `SentenceError` : why there is no sentence.
-/

namespace Chunker

/-- A sentence with the trees found for it, by tag sequence. -/
structure Sentence where
  id : String
  words : List Word
  trees : List (Option Tree)

/-- The reasons why words or lines of text do not make up a sentence. A word may not have as many
tag sequences as the first one, and a line may have fields, but not a form followed by pairs of a
lemma and a tag. -/
inductive SentenceError where
  | unevenSequences (form : String) (found expected : Nat)
  | malformedLine (number : Nat) (line : String)
deriving DecidableEq

/-- The wording of an error. -/
def SentenceError.message : SentenceError → String
  | unevenSequences form found expected =>
    "word '" ++ form ++ "' has " ++ toString found ++ " tag sequences, expected " ++
      toString expected
  | malformedLine number line =>
    "line " ++ toString number ++ ": expected 'form lemma tag [lemma tag ...]': " ++ line

namespace Sentence

/-! ### Parts -/

/-- The number of words. -/
def size (s : Sentence) : Nat :=
  s.words.length

/-- Holds of a sentence without words. -/
def isEmpty (s : Sentence) : Bool :=
  s.words.isEmpty

/-- The number of tag sequences: that of the first word. -/
def sequences (s : Sentence) : Nat :=
  (s.words.head?.map Word.sequences).getD 0

/-- The forms of the words, a space between any two. -/
def text (s : Sentence) : String :=
  " ".intercalate (s.words.map Word.form)

/-! ### Trees -/

/-- The sentence with a tree for a tag sequence. Beyond the last sequence, room is made first. -/
def setTree (s : Sentence) (k : Nat) (t : Tree) : Sentence :=
  let room := s.trees ++ List.replicate (k + 1 - s.trees.length) none
  { s with trees := room.set k (some t) }

/-- The tree for a tag sequence. -/
def tree? (s : Sentence) (k : Nat) : Option Tree :=
  s.trees[k]?.join

/-! ### From words -/

/-- The sentence of a list of words, without trees. The words have to agree on the number of tag
sequences. -/
def ofWords (id : String) (words : List Word) : Except SentenceError Sentence :=
  let expected := (words.head?.map Word.sequences).getD 0
  match words.find? (·.sequences != expected) with
  | some w => .error (.unevenSequences w.form w.sequences expected)
  | none => .ok ⟨id, words, List.replicate expected none⟩

/-! ### From text -/

/-- The analyses of alternating lemmas and tags, one for each tag sequence; nothing if the last
lemma has no tag. -/
def analysesOfFields : List String → Option (List (List Analysis))
  | [] => some []
  | [_] => none
  | l :: t :: rest => (analysesOfFields rest).map ([⟨l, t⟩] :: ·)

/-- The word of the fields of a line: a form and at least one pair of a lemma and a tag. -/
def wordOfFields : List String → Option Word
  | form :: l :: t :: rest => (analysesOfFields (l :: t :: rest)).map (Word.mk form)
  | _ => none

/-- The words of the lines of a text, the first of which has a given number. -/
def wordsOfLines (number : Nat) : List String → Except SentenceError (List Word)
  | [] => .ok []
  | line :: rest =>
    let fs := Text.fields line
    if fs.isEmpty then wordsOfLines (number + 1) rest
    else
      match wordOfFields fs with
      | none => .error (.malformedLine number line)
      | some w =>
        match wordsOfLines (number + 1) rest with
        | .error e => .error e
        | .ok ws => .ok (w :: ws)

/-- The sentence of a tagged text. -/
def ofTagged (id text : String) : Except SentenceError Sentence :=
  match wordsOfLines 1 (Text.lines text) with
  | .error e => .error e
  | .ok words => ofWords id words

end Sentence

end Chunker
