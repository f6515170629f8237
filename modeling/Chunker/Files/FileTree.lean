import Chunker.Files.Path
import Chunker.Files.Source

/-!
# File trees

A file tree holds the files and directories below a working directory. Paths are looked up step
by step from there. Outside the working directory only directories are met, and none of their
entries are known.

## Main definitions

* `FileTree` : the files and directories by their steps.
* `FileTree.add` : a further file or directory.
* `FileTree.locate` : the place to which a path leads.
* `FileTree.read` : the text at a path.
-/

namespace Chunker

/-- The files, with their bytes, and the directories below a working directory. -/
structure FileTree where
  /-- The entries by their steps from the working directory; a directory has no bytes. -/
  entries : List (List String × Option ByteArray) := []

namespace FileTree

/-- What stands at the end of a path: an entry, by its steps from the working directory, or a
directory that is not below it. -/
inductive Place where
  | inside (steps : List String)
  | outside

/-- The steps of a path that lead anywhere. -/
def properSteps (p : String) : List String :=
  (Path.steps p).filter fun s => s != "" && s != "."

/-- The tree with one more file, or one more directory. An entry of the same steps is replaced. -/
def add (t : FileTree) (p : String) (bytes : Option ByteArray) : FileTree :=
  ⟨(properSteps p, bytes) :: t.entries⟩

/-- The bytes of the file at the end of some steps. -/
def bytes? (t : FileTree) (steps : List String) : Option ByteArray :=
  t.entries.findSome? fun (s, bytes) => if s = steps then bytes else none

/-- Holds of an entry, or a directory on the way to one. The working directory always is
there. -/
def has (t : FileTree) (steps : List String) : Bool :=
  steps.isEmpty || t.entries.any fun (s, _) => steps.isPrefixOf s

/-- Holds of a place from which a path can go on. -/
def isDirectory (t : FileTree) : Place → Bool
  | .inside steps => (t.bytes? steps).isNone
  | .outside => true

/-- The greatest number of bytes in one step of a path. -/
def maxStep : Nat := 255

/-- The greatest number of bytes in a path. -/
def maxPath : Nat := 4095

/-- The place that one step leads to. -/
def follow (t : FileTree) (place : Place) (step : String) : Except FileError Place :=
  if !t.isDirectory place then .error .notDirectory
  else if step = "" ∨ step = "." then .ok place
  else
    match place with
    | .outside =>
      if step = ".." then .ok .outside
      else if maxStep < step.utf8ByteSize then .error .nameTooLong
      else .error .notFound
    | .inside steps =>
      if step = ".." then .ok (if steps.isEmpty then .outside else .inside steps.dropLast)
      else if maxStep < step.utf8ByteSize then .error .nameTooLong
      else if t.has (steps ++ [step]) then .ok (.inside (steps ++ [step]))
      else .error .notFound

/-- The place that a path leads to. -/
def locate (t : FileTree) (p : String) : Except FileError Place :=
  if '\x00' ∈ p.toList then .error .nulInName
  else if p.isEmpty then .error .notFound
  else if maxPath < p.utf8ByteSize then .error .nameTooLong
  else (Path.steps p).foldlM t.follow (if Path.isAbsolute p then .outside else .inside [])

/-- The text at a path. -/
def read (t : FileTree) : Source := fun p =>
  match t.locate p with
  | .error e => .error e
  | .ok .outside => .error .isDirectory
  | .ok (.inside steps) =>
    match t.bytes? steps with
    | none => .error .isDirectory
    | some bytes =>
      match String.fromUTF8? bytes with
      | none => .error .notText
      | some text => .ok text

end FileTree

end Chunker
