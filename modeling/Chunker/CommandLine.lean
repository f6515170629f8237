import Chunker.Chunking
import Chunker.Grammar
import Chunker.Text.Quoted

/-!
# The command line

The command reads a grammar from a file and tagged sentences from standard input, with a blank
line after each, and writes the trees of every sentence. On request it also writes the chart of
the first tag sequence. A sentence that cannot be read or chunked is skipped.

The command is a function of its arguments, of the texts of the files, and of the standard input.

## Main definitions

* `CommandLine.usage` : the explanation of the arguments.
* `CommandLine.Request`, `CommandLine.readArguments` : what the arguments ask for.
* `CommandLine.Input` : the lines of the standard input.
* `CommandLine.blocks` : the sentences among the lines.
* `CommandLine.sentenceText` : what is written for a sentence.
* `CommandLine.run` : the exit code and the text on both outputs.
-/

namespace Chunker.CommandLine

/-! ### Arguments -/

/-- The explanation of the arguments. -/
def usage (program : String) : String :=
  "Usage: " ++ program ++ " GRAMMAR [options]\n\n" ++
  "Reads tagged sentences from stdin, one token per line as\n" ++
  "`form lemma tag [lemma tag ...]`, with a blank line after each sentence.\n\n" ++
  "Options:\n" ++
  "  -h, --help    Print this message\n" ++
  "  -c, --chart   Print the chart of the first tag sequence (defaults to not printing)\n\n" ++
  "Set RUST_LOG (e.g. RUST_LOG=chunkparse=debug) to see parser logs."

/-- What is wrong with the arguments: one after the grammar is no option, or no grammar is named. -/
inductive ArgumentError where
  | unexpected
  | missingGrammar
deriving DecidableEq

/-- The wording of an error, with the explanation of the arguments. -/
def ArgumentError.message (program : String) (e : ArgumentError) : String :=
  let cause :=
    match e with
    | unexpected => "invalid arguments"
    | missingGrammar => "missing grammar file"
  "argument error: " ++ cause ++ ".\n\n" ++ usage program

/-- What the arguments ask for: the explanation of the arguments, or the trees of sentences by a
grammar, perhaps with charts. -/
inductive Request where
  | help
  | chunk (grammar : String) (showChart : Bool)
deriving DecidableEq

/-- What the arguments ask for, given what those before them have set. Asking for help ends the
reading. -/
def readArguments (grammar : Option String) (showChart : Bool) :
    List String → Except ArgumentError Request
  | [] =>
    match grammar with
    | some path => .ok (.chunk path showChart)
    | none => .error .missingGrammar
  | arg :: args =>
    if arg = "-h" ∨ arg = "--help" then .ok .help
    else if arg = "-c" ∨ arg = "--chart" then readArguments grammar true args
    else if grammar.isNone then readArguments (some arg) showChart args
    else .error .unexpected

/-! ### Standard input -/

/-- The lines of the standard input, as far as they can be decoded. -/
structure Input where
  lines : List String
  /-- Whether the next line does not encode a text. -/
  isBroken : Bool := false

namespace Input

/-- The pieces of a list of bytes after each newline. -/
def cutAtNewlines : List UInt8 → List (List UInt8)
  | [] => []
  | b :: bs =>
    if b = 10 then [b] :: cutAtNewlines bs
    else
      match cutAtNewlines bs with
      | [] => [[b]]
      | piece :: pieces => (b :: piece) :: pieces

/-- The lines of pieces that end in a newline, up to the first that does not encode a text. -/
def ofPieces : List (List UInt8) → Input
  | [] => ⟨[], false⟩
  | piece :: pieces =>
    match String.fromUTF8? ⟨piece.toArray⟩ with
    | none => ⟨[], true⟩
    | some text =>
      let rest := ofPieces pieces
      { rest with lines := Text.lines text ++ rest.lines }

/-- The lines of a text. -/
def ofText (text : String) : Input :=
  ⟨Text.lines text, false⟩

/-- The lines of a list of bytes. If not all of them encode a text, those before the first line
that does not are kept. -/
def ofBytes (bytes : ByteArray) : Input :=
  match String.fromUTF8? bytes with
  | some text => ofText text
  | none => ofPieces (cutAtNewlines bytes.toList)

end Input

/-- The sentences among the lines: stretches of lines that are not blank, each line ended by a
newline; and the stretch that no blank line ends. It is given what has been gathered before. -/
def gather (pending : String) : List String → List String × String
  | [] => ([], pending)
  | line :: rest =>
    if Text.isBlankText line then
      let (found, last) := gather "" rest
      (if pending.isEmpty then found else pending :: found, last)
    else gather (pending ++ line ++ "\n") rest

/-- The sentences among the lines of an input. The last one counts only if the input ends well. -/
def blocks (input : Input) : List String :=
  let (found, last) := gather "" input.lines
  if input.isBroken || last.isEmpty then found else found ++ [last]

/-! ### Output -/

/-- What is written for the tree of a tag sequence. The sequence is named if there are several. -/
def treeText (s : Sentence) (k : Nat) : String :=
  match s.tree? k with
  | none => ""
  | some t =>
    (if 1 < s.sequences then "sequence " ++ toString k ++ ":\n" else "") ++ t.text ++ "\n\n"

/-- What is written for the trees of a sentence. -/
def treesText (g : RuleSet) (s : Sentence) : String :=
  match g.chunk s with
  | ⟨.error _, _, _⟩ => ""
  | ⟨.ok (), s, _⟩ => String.join ((List.range s.sequences).map (treeText s))

/-- What is written for a tagged text: the chart, if it is asked for, and the trees. Nothing is
written for a text that is no sentence, or whose chart is asked for and has no analysis. -/
def sentenceText (g : RuleSet) (showChart : Bool) (number : Nat) (text : String) : String :=
  match Sentence.ofTagged (toString number) text with
  | .error _ => ""
  | .ok s =>
    if s.isEmpty then ""
    else if showChart then
      match (Chart.load g s 0).parse g with
      | (.error _, _) => ""
      | (.ok (), chart) => "chart:\n" ++ chart.text ++ "\n" ++ treesText g s
    else treesText g s

/-- What is written for the sentences of an input, which are numbered from 1. -/
def sentencesText (g : RuleSet) (showChart : Bool) (input : Input) : String :=
  String.join ((blocks input).mapIdx fun i text => sentenceText g showChart (i + 1) text)

/-- The exit code, which is 0 if all went well, and the text on both outputs. -/
structure Outcome where
  exit : Nat
  stdout : String := ""
  stderr : String := ""

/-- The exit code for arguments that ask for nothing. -/
def usageExit : Nat := 255

/-- The exit code for a grammar or an input that cannot be read. -/
def failureExit : Nat := 1

/-- What is written on standard error for an input that does not encode a text. -/
def brokenInputText : String :=
  "Error: Error \x7b kind: InvalidData, message: " ++ Text.quoted FileError.notText.message ++
    " \x7d\n"

/-- The outcome of chunking an input by the grammar of a file. -/
def runChunk (source : Source) (path : String) (showChart : Bool) (input : Input) : Outcome :=
  match Grammar.ofFile source path with
  | .error e => ⟨failureExit, "", "Error: " ++ Text.quoted e.message ++ "\n"⟩
  | .ok grammar =>
    let written := sentencesText grammar.rules showChart input
    if input.isBroken then ⟨failureExit, written, brokenInputText⟩ else ⟨0, written, ""⟩

/-- The outcome of the command. -/
def run (program : String) (args : List String) (source : Source) (input : Input) : Outcome :=
  match readArguments none false args with
  | .error e => ⟨usageExit, "", e.message program ++ "\n"⟩
  | .ok .help => ⟨0, usage program ++ "\n", ""⟩
  | .ok (.chunk path showChart) => runChunk source path showChart input

/-! ### Files -/

/-- The paths of the files that a grammar may refer to: whatever stands between quotes in its
text, looked up from the directory of its own file. -/
def conditionPaths (path text : String) : List String :=
  ((text.splitOn "\"").filter fun s =>
      s != "" && s.toList.all fun c => Grammar.inPath c || c == ':')
    |>.map (Path.join (Path.parent path))

end Chunker.CommandLine
