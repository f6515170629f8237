import Chunker.Category
import Chunker.Files.Source

/-!
# Errors of a grammar

Why a text is no grammar. Where a token is missing, the error shows the text that stands in its
place, cut after thirty characters.

## Main definitions

* `GrammarError` : the causes.
* `GrammarError.message` : the wording.
* `Grammar.excerpt` : the start of a text.
-/

namespace Chunker

/-- A path that has no text, with the reason. -/
structure Unreadable where
  path : String
  reason : FileError
deriving DecidableEq

/-- The wording for an unreadable file. -/
def Unreadable.message (u : Unreadable) : String :=
  "error opening file " ++ u.path ++ ": " ++ u.reason.message

/-- The causes for which a text is no grammar: a file has no text, a statement is not written as it
should be, or the statements do not fit together. `found` is the start of the text at which
something is missing. -/
inductive GrammarError where
  | unreadable (file : Unreadable)
  | missingHead (found : String)
  | missingArrow (found : String)
  | missingPattern (head : Category) (found : String)
  | unreadableCondition (head : Category) (file : Unreadable)
  | secondGovernor (head : Category)
  | missingSeparator (head : Category) (found : String)
  | missingDirective (found : String)
  | missingDirectiveCategory (directive found : String)
  | startArity
  | startRepeated
  | startMissing
  | terminalInDirective (category : Category) (directive : String)
  | unknownDirective (directive : String)
deriving DecidableEq

namespace Grammar

/-- The greatest number of characters in an excerpt. -/
def excerptLength : Nat := 30

/-- The start of a text. -/
def excerpt (s : List Char) : String :=
  String.ofList (s.take excerptLength)

/-- The wording for a text that does not begin with a token, which is given as a regular
expression. -/
def mismatch (token found : String) : String :=
  "couldn't match " ++ token ++ " at " ++ found

/-- The wording for a text that does not begin with a category. -/
def categoryMismatch (found : String) : String :=
  "category: " ++ mismatch "^[A-Za-z][\\-A-Za-z0-9]*\\*?" found

end Grammar

open Grammar in
/-- The wording of an error. -/
def GrammarError.message : GrammarError → String
  | unreadable file => file.message
  | missingHead found => "rule head: " ++ categoryMismatch found
  | missingArrow found => "rule arrow: " ++ mismatch "^==>" found
  | missingPattern head found => "rule " ++ head ++ " production: " ++ categoryMismatch found
  | unreadableCondition head file => "rule " ++ head ++ " production: " ++ file.message
  | secondGovernor head => "rule " ++ head ++ ": more than one governor"
  | missingSeparator head found =>
    "rule " ++ head ++ ": expected ',', '|' or '.' at " ++ found
  | missingDirective found => mismatch "^@[A-Z]+" found
  | missingDirectiveCategory directive found =>
    "directive " ++ directive ++ ": " ++ categoryMismatch found
  | startArity => "@START takes exactly one category"
  | startRepeated => "@START specified more than once"
  | startMissing => "@START symbol not specified"
  | terminalInDirective category directive =>
    "terminal symbol '" ++ category ++ "' not allowed in directive " ++ directive
  | unknownDirective directive => "unknown directive " ++ directive

end Chunker
