/-!
# Runs of code points

A character class is a list of runs, each the code points from a first to a last one in equal
steps. Steps of two serve the alphabets in which capital and small letters alternate.

## Main definitions

* `Text.Run` : a run of code points.
* `Text.Run.holds` : membership of a character in a list of runs.
-/

namespace Chunker.Text

/-- The code points `first`, `first + step`, and so on up to `last`. -/
structure Run where
  first : Nat
  last : Nat
  step : Nat

namespace Run

/-- Holds of a code point of the run. -/
def covers (r : Run) (n : Nat) : Bool :=
  r.first ≤ n && n ≤ r.last && (n - r.first) % r.step == 0

/-- Holds of a character in one of the runs. -/
def holds (rs : List Run) (c : Char) : Bool :=
  rs.any (·.covers c.toNat)

end Run

end Chunker.Text
