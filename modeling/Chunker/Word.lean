import Chunker.Text.Casing

/-!
# Words

A word is a form with the analyses that a tagger selected for it. There may be several tag
sequences for a sentence, and the analyses are selected for each sequence on its own.

## Main definitions

* `Analysis` : a lemma and a tag.
* `Word` : a form and the analyses selected under each tag sequence.
* `Word.tag`, `Word.lemmaForm` : the tag and the lemma of the first analysis of a sequence.
-/

namespace Chunker

/-- One reading of a word. -/
structure Analysis where
  /-- The lemma: the form under which a dictionary lists the word. -/
  lemmaForm : String
  tag : String
deriving DecidableEq

/-- A form and the analyses selected under each tag sequence. -/
structure Word where
  form : String
  selected : List (List Analysis) := []
deriving DecidableEq

namespace Word

/-- A word with one analysis in a single tag sequence. -/
def tagged (form lemmaForm tag : String) : Word :=
  ⟨form, [[⟨lemmaForm, tag⟩]]⟩

/-- The form in lower case. Conditions on word forms are compared with it. -/
def lowerForm (w : Word) : String :=
  Text.lowercase w.form

/-- The number of tag sequences. -/
def sequences (w : Word) : Nat :=
  w.selected.length

/-- The analyses selected under a tag sequence; none beyond the last sequence. -/
def analyses (w : Word) (k : Nat) : List Analysis :=
  w.selected.getD k []

/-- The tag of the first analysis under a tag sequence, empty if there is none. -/
def tag (w : Word) (k : Nat) : String :=
  ((w.analyses k).head?.map Analysis.tag).getD ""

/-- The lemma of the first analysis under a tag sequence, empty if there is none. -/
def lemmaForm (w : Word) (k : Nat) : String :=
  ((w.analyses k).head?.map Analysis.lemmaForm).getD ""

end Word

end Chunker
