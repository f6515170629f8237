import Chunker.Text.Blank

/-!
# Lines and fields

A text is cut into lines and a line into fields. A newline ends a line, together with a single
carriage return right before it; the last line needs no newline and then keeps its carriage
return. Fields are the longest stretches of a line without a blank character.

## Main definitions

* `Text.lineLists`, `Text.lines` : the lines of a text.
* `Text.fieldLists`, `Text.fields` : the fields of a line.
* `Text.trimEnd` : a line without the blank characters at its end.
* `Text.isBlankText` : the test for a text of blank characters only.
-/

namespace Chunker.Text

/-! ### Lines -/

/-- The lines of a text. -/
def lineLists : List Char → List (List Char)
  | [] => []
  | '\r' :: '\n' :: cs => [] :: lineLists cs
  | c :: cs =>
    if c = '\n' then [] :: lineLists cs
    else
      match lineLists cs with
      | [] => [[c]]
      | l :: ls => (c :: l) :: ls

/-- The lines of a text. -/
def lines (s : String) : List String :=
  (lineLists s.toList).map String.ofList

/-! ### Fields -/

/-- The fields of a line. -/
def fieldLists : List Char → List (List Char)
  | [] => []
  | c :: cs =>
    if isBlank c then fieldLists cs
    else
      match cs, fieldLists cs with
      | d :: _, f :: fs => if isBlank d then [c] :: f :: fs else (c :: f) :: fs
      | _, fs => [c] :: fs

/-- The fields of a line. -/
def fields (s : String) : List String :=
  (fieldLists s.toList).map String.ofList

/-! ### Blank ends -/

/-- A line without the blank characters at its end. -/
def trimEnd (s : String) : String :=
  String.ofList (s.toList.reverse.dropWhile isBlank).reverse

/-- Holds of a text that holds nothing but blank characters. -/
def isBlankText (s : String) : Bool :=
  s.toList.all isBlank

end Chunker.Text
