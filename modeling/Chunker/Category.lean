/-!
# Categories and patterns

A category names a word class or a chunk. It is a tag, such as `NN` or `VMIP3S0`, that may carry
a literal condition at its end: `(form)` for a word form or `<lemma>` for a lemma. A pattern on
the right of a rule is written in the same way; in addition, its tag may hold a `*`, and its
condition may name a file that lists the accepted forms or lemmas: `("file")`, `<"file">`.

## Main definitions

* `Category.base`, `Category.condition` : the two parts of a category.
* `Category.stem?` : the text before the wildcard of a pattern.
* `Category.namesFile` : the test for a condition that refers to a file.
* `Category.specificity` : the rank of a category by the condition it ends with.

## Main results

* `Category.base_append_condition` : the two parts make up the category.
-/

namespace Chunker

/-- The name of a word class or a chunk, or a pattern for such names. -/
abbrev Category := String

namespace Category

/-! ### Parts -/

/-- Holds of a bracket that opens a condition. -/
def opensCondition (c : Char) : Bool :=
  c == '(' || c == '<'

/-- The tag of a category: everything before its condition. -/
def base (c : Category) : String :=
  String.ofList (c.toList.takeWhile fun x => !opensCondition x)

/-- The condition of a category, from its first opening bracket on. -/
def condition (c : Category) : String :=
  String.ofList (c.toList.dropWhile fun x => !opensCondition x)

/-- The two parts make up the category. -/
theorem base_append_condition (c : Category) : base c ++ condition c = c := by
  rw [base, condition, ← String.ofList_append, List.takeWhile_append_dropWhile,
    String.ofList_toList]

/-- The text before the first `*` of a pattern, if it has one. -/
def stem? (p : Category) : Option String :=
  if '*' ∈ p.toList then some (String.ofList (p.toList.takeWhile (· != '*'))) else none

/-- Holds of a pattern with a wildcard. -/
def isWild (p : Category) : Bool :=
  decide ('*' ∈ p.toList)

/-- Holds of a condition that refers to a file instead of carrying a form or a lemma. -/
def namesFile (condition : String) : Bool :=
  decide ('"' ∈ condition.toList)

/-- Holds of a category that begins with a text. -/
def startsWith (c : Category) (stem : String) : Bool :=
  stem.toList.isPrefixOf c.toList

/-! ### Specificity -/

/-- Holds of a category in which a character occurs at the end and nowhere else. -/
def endsAtFirst (x : Char) (c : Category) : Bool :=
  c.toList.dropWhile (· != x) == [x]

/-- The rank of a category by its condition, the most specific first: 0 with a word form, 1 with
a lemma, 2 without a condition. The first closing bracket has to end the category, so `Fpt())`
has no condition. -/
def specificity (c : Category) : Nat :=
  if '(' ∈ c.toList && endsAtFirst ')' c then 0
  else if '<' ∈ c.toList && endsAtFirst '>' c then 1
  else 2

end Category

end Chunker
