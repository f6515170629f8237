/-!
# Sources of text

Grammars and condition files are read by path. A source answers a path with the text found there
or with the reason why there is none.

## Main definitions

* `FileError` : why a path has no text.
* `Source` : the answers to paths.
-/

namespace Chunker

/-- The reasons why a path has no text. A step may lead on from something that is no directory, the
path or one of its steps may be too long or hold a NUL character, and the bytes at its end may not
encode a text. -/
inductive FileError where
  | notFound
  | isDirectory
  | notDirectory
  | nameTooLong
  | nulInName
  | notText
deriving DecidableEq

/-- The wording of an error. -/
def FileError.message : FileError → String
  | notFound => "No such file or directory (os error 2)"
  | isDirectory => "Is a directory (os error 21)"
  | notDirectory => "Not a directory (os error 20)"
  | nameTooLong => "File name too long (os error 36)"
  | nulInName => "file name contained an unexpected NUL byte"
  | notText => "stream did not contain valid UTF-8"

/-- The text or the error for each path. -/
abbrev Source := String → Except FileError String

end Chunker
