import Chunker.Files.Path
import Chunker.Grammar.Draft
import Chunker.Text.Lines

/-!
# Grammars

A grammar is read as a list of statements, which are then applied to a draft in order. What a
statement says wrongly goes before what is written wrongly further on. At the end there has to be
a start symbol.

References to files are looked up from the directory of the grammar's own file, or from the
working directory if the grammar has none. Every line of a condition file is an entry, without
the blanks at its end; empty lines are not.

## Main definitions

* `Grammar` : a rule set with the warnings met in reading it.
* `Grammar.entries` : the conditions that a file lists.
* `Grammar.readStatements` : the statements of a text, with what is wrong after them.
* `Grammar.ofText`, `Grammar.ofFile` : the grammar of a text and of a file.
-/

namespace Chunker

/-- A rule set with the warnings met in reading it. -/
structure Grammar where
  rules : RuleSet
  warnings : List Warning

namespace Grammar

/-! ### Condition files -/

/-- The kind of a reference, by its opening bracket. -/
def referenceKind (reference : String) : ConditionKind :=
  if reference.toList.head? = some '<' then .lemmaForm else .form

/-- The path in a reference: the text between its brackets, without the quotes. -/
def referencePath (reference : String) : String :=
  let inner := (reference.toList.drop 1).dropLast
  String.ofList ((inner.dropWhile (· == '"')).reverse.dropWhile (· == '"')).reverse

/-- A line of a condition file between the brackets of a kind of condition. -/
def entry (kind : ConditionKind) (line : String) : String :=
  String.ofList (kind.opening :: line.toList ++ [kind.closing])

/-- The conditions that a file lists. -/
def entries (source : Source) (dir : String) : Listing := fun reference =>
  let path := Path.join dir (referencePath reference)
  match source path with
  | .error reason => .error ⟨path, reason⟩
  | .ok text =>
    let lines := ((Text.lines text).map Text.trimEnd).filter (· != "")
    .ok (lines.map (entry (referenceKind reference)))

/-! ### Texts -/

/-- The statements of a text up to the first error in writing, and that error. -/
structure Reading where
  statements : List Statement
  error? : Option GrammarError

/-- The statements of a text. -/
def readStatements (listing : Listing) (s : List Char) : Reading :=
  if (skipGap s).isEmpty then ⟨[], none⟩
  else
    match _h : readStatement listing (skipGap s) with
    | .error e => ⟨[], some e⟩
    | .ok (statement, rest) =>
      let following := readStatements listing rest
      { following with statements := statement :: following.statements }
termination_by s.length
decreasing_by
  have := length_readStatement_lt _h
  have := length_skipGap_le s
  omega

/-- The grammar of a text whose references are looked up from a directory. -/
def ofTextIn (source : Source) (dir text : String) : Except GrammarError Grammar :=
  let reading := readStatements (entries source dir) text.toList
  match Draft.applyAll {} reading.statements, reading.error? with
  | .error e, _ => .error e
  | .ok _, some e => .error e
  | .ok d, none =>
    match d.finish with
    | .error e => .error e
    | .ok (rules, warnings) => .ok ⟨rules, warnings⟩

/-- The grammar of a text. -/
def ofText (source : Source) (text : String) : Except GrammarError Grammar :=
  ofTextIn source "." text

/-- The grammar of a file. -/
def ofFile (source : Source) (path : String) : Except GrammarError Grammar :=
  match source path with
  | .error reason => .error (.unreadable ⟨path, reason⟩)
  | .ok text => ofTextIn source (Path.parent path) text

end Grammar

end Chunker
