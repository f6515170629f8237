import Chunker.CommandLine

/-!
# The program

The program gathers the arguments, the files that may be read and the standard input, runs the
command on them, and writes what it answers.

## Main definitions

* `readSource` : the text at a path.
* `main` : the program.
-/

namespace Chunker.CommandLine

/-- The reason for which a path has no text. -/
def fileError : IO.Error → FileError
  | .inappropriateType _ code _ => if code = 21 then .isDirectory else .notDirectory
  | .invalidArgument _ _ _ => .nameTooLong
  | _ => .notFound

/-- The text at a path. -/
def readSource (path : String) : IO (Except FileError String) := do
  match ← (IO.FS.readBinFile path).toBaseIO with
  | .error e => return .error (fileError e)
  | .ok bytes =>
    match String.fromUTF8? bytes with
    | none => return .error .notText
    | some text => return .ok text

/-- The texts of the grammar that the arguments name, and of the files that it may refer to. -/
def gatherSource (args : List String) : IO Source := do
  match readArguments none false args with
  | .ok (.chunk path _) =>
    let grammar ← readSource path
    let mentioned := match grammar with
      | .ok text => conditionPaths path text
      | .error _ => []
    let mut found := [(path, grammar)]
    for p in mentioned do
      found := (p, ← readSource p) :: found
    let answers := found
    return fun p => (answers.lookup p).getD (.error .notFound)
  | _ => return fun _ => .error .notFound

end Chunker.CommandLine

open Chunker.CommandLine in
/-- The program. -/
def main (args : List String) : IO UInt32 := do
  let source ← gatherSource args
  let bytes ← match readArguments none false args with
    | .ok (.chunk _ _) => (← IO.getStdin).readBinToEnd
    | _ => pure ByteArray.empty
  let outcome := run (← IO.appPath).toString args source (Input.ofBytes bytes)
  IO.print outcome.stdout
  IO.eprint outcome.stderr
  return outcome.exit.toUInt32
