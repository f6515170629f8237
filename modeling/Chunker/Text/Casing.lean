import Chunker.Text.Cased
import Chunker.Text.SmallLetter

/-!
# Lower case

The full lower-case form of a text. Two characters need more than the small letter of one
capital: a capital I with a dot becomes an i followed by a combining dot, and a capital sigma
becomes a final sigma at the end of a word.

A sigma ends a word if the nearest character before it that is not case-ignorable is cased,
and the nearest one after it is not.

## Main definitions

* `Text.lowercase` : the lower-case form of a text.
-/

namespace Chunker.Text

/-- Holds of a cased character behind any case-ignorable ones. -/
def startsCased (cs : List Char) : Bool :=
  match cs.dropWhile isCaseIgnorable with
  | [] => false
  | c :: _ => isCased c

/-- The lower-case form of one character between its two neighbourhoods. The text before it
is given from its end. -/
def lowerAt (before : List Char) (c : Char) (after : List Char) : List Char :=
  if c = 'İ' then ['i', '\u0307']
  else if c = 'Σ' then
    if startsCased before && !startsCased after then ['ς'] else ['σ']
  else [smallLetter c]

/-- The lower-case form of the rest of a text, given the text before it from its end. -/
def lowerFrom (before : List Char) : List Char → List Char
  | [] => []
  | c :: after => lowerAt before c after ++ lowerFrom (c :: before) after

/-- The lower-case form of a text. -/
def lowercase (s : String) : String :=
  String.ofList (lowerFrom [] s.toList)

end Chunker.Text
