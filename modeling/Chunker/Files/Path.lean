/-!
# Paths

A path is a text of steps between slashes. A path that begins with a slash does not depend on
where it is looked up.

## Main definitions

* `Path.isAbsolute` : the test for a path that begins with a slash.
* `Path.join` : a path looked up from a directory.
* `Path.parent` : the directory of the last step of a path.
* `Path.steps` : the steps of a path.
-/

namespace Chunker.Path

/-- Holds of a path that begins with a slash. -/
def isAbsolute (p : String) : Bool :=
  p.toList.head? == some '/'

/-- A path looked up from a directory. An absolute path stays as it is, and the empty directory
adds nothing. -/
def join (dir p : String) : String :=
  if isAbsolute p || dir.isEmpty then p
  else if dir.toList.getLast? == some '/' then dir ++ p
  else dir ++ "/" ++ p

/-- The end of a path, written backwards, without slashes and without steps of a single dot. A
path of one slash is kept. -/
def dropIdleSteps : List Char → List Char
  | ['/'] => ['/']
  | '/' :: cs => dropIdleSteps cs
  | '.' :: '/' :: cs => dropIdleSteps ('/' :: cs)
  | cs => cs

/-- The directory of the last step of a path; empty if the path is a single step. -/
def parent (p : String) : String :=
  String.ofList (dropIdleSteps (p.toList.reverse.dropWhile (· != '/'))).reverse

/-- The pieces of a text between slashes. -/
def piecesOf : List Char → List (List Char)
  | [] => [[]]
  | c :: cs =>
    if c = '/' then [] :: piecesOf cs
    else
      match piecesOf cs with
      | [] => [[c]]
      | s :: ss => (c :: s) :: ss

/-- The steps of a path, with an empty one wherever a slash has no step on one side. -/
def steps (p : String) : List String :=
  (piecesOf p.toList).map String.ofList

end Chunker.Path
