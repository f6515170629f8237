import Chunker.Chart.Parse

/-!
# Charts that are used again

One chart may serve for several sentences. To load a sentence is to empty the chart, give it as
many cells as the sentence asks for, and write the bottom row word by word; to parse it is to
fill it in place, where it may have been filled before. Calls follow one another on the same chart
in any order.

## Main definitions

* `Chart.reload` : a sentence loaded into a chart that has been used.
* `Chart.Call`, `Chart.call` : what can be done with a chart.
* `Chart.run` : a chart after several calls.
-/

namespace Chunker.Chart

/-- The chart with no edge, and with room for a number of words. -/
def clear (chart : Chart) (n : Nat) : Chart :=
  { chart with size := n, table := Array.replicate (Coord.count n) [] }

/-- The chart with the bottom cells of several words written, the first of which has a given
position. -/
def seedFrom (g : RuleSet) (k : Nat) (chart : Chart) (j : Nat) : List Word → Chart
  | [] => chart
  | w :: ws => seedFrom g k (chart.put ⟨0, j⟩ (seeds g k w ⟨0, j⟩)) (j + 1) ws

/-- The chart with a tag sequence of a sentence in the place of what it held. -/
def reload (g : RuleSet) (chart : Chart) (s : Sentence) (k : Nat) : Chart :=
  (chart.clear s.size).seedFrom g k 0 s.words

/-- What can be done with a chart: to load a tag sequence of a sentence, and to parse. -/
inductive Call where
  | load (s : Sentence) (k : Nat)
  | parse

/-- The outcome of a call and the chart that it leaves. To load a sentence always succeeds. -/
def call (g : RuleSet) (chart : Chart) : Call → Except ParseError Unit × Chart
  | .load s k => (.ok (), chart.reload g s k)
  | .parse => chart.parse g

/-- The chart after several calls, one after the other. -/
def run (g : RuleSet) (chart : Chart) (calls : List Call) : Chart :=
  calls.foldl (fun chart c => (chart.call g c).2) chart

end Chunker.Chart
