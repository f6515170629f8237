import Chunker.Text.Run

/-!
# Blank characters

The characters with the Unicode property `White_Space`. They separate the tokens of a grammar
and the fields of a tagged line. Controls that only divide records, zero-width characters and
the byte order mark are not among them.

## Main definitions

* `Text.isBlank` : the test for one character.
-/

namespace Chunker.Text

/-- The blank characters: twenty-five code points. -/
def blankRuns : List Run :=
  [⟨0x9, 0xd, 1⟩, ⟨0x20, 0x20, 1⟩, ⟨0x85, 0x85, 1⟩, ⟨0xa0, 0xa0, 1⟩, ⟨0x1680, 0x1680, 1⟩,
  ⟨0x2000, 0x200a, 1⟩, ⟨0x2028, 0x2029, 1⟩, ⟨0x202f, 0x202f, 1⟩, ⟨0x205f, 0x205f, 1⟩,
  ⟨0x3000, 0x3000, 1⟩]

/-- Holds of a character with the property `White_Space`. -/
def isBlank (c : Char) : Bool :=
  Run.holds blankRuns c

end Chunker.Text
