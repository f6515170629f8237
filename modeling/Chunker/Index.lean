/-!
# Indices

An index files values under keys. The values of a key stand in the order in which they were
filed, and the keys in the order in which they were first used.

## Main definitions

* `Index` : the buckets of values by key.
* `Index.get`, `Index.file`, `Index.without`, `Index.size`, `Index.values` : the operations.

## Main results

* `Index.get_file` : filing a value puts it at the end of its own bucket and leaves the others.
* `Index.size_without_add_le` : leaving out a bucket leaves out all of its values.
-/

namespace Chunker

/-- The values filed under each key. -/
structure Index (κ α : Type) where
  buckets : List (κ × List α) := []

namespace Index

variable {κ α : Type} [DecidableEq κ]

/-! ### Operations -/

/-- The values of the first bucket of a key. -/
def valuesIn (k : κ) : List (κ × List α) → List α
  | [] => []
  | (k', as) :: bs => if k' = k then as else valuesIn k bs

/-- The buckets with one more value under a key. -/
def fileIn (k : κ) (a : α) : List (κ × List α) → List (κ × List α)
  | [] => [(k, [a])]
  | (k', as) :: bs => if k' = k then (k', as ++ [a]) :: bs else (k', as) :: fileIn k a bs

/-- The buckets of the other keys. -/
def leaveOut (k : κ) : List (κ × List α) → List (κ × List α)
  | [] => []
  | (k', as) :: bs => if k' = k then leaveOut k bs else (k', as) :: leaveOut k bs

/-- The values filed under a key. -/
def get (ix : Index κ α) (k : κ) : List α :=
  valuesIn k ix.buckets

/-- The index with one more value under a key. -/
def file (ix : Index κ α) (k : κ) (a : α) : Index κ α :=
  ⟨fileIn k a ix.buckets⟩

/-- The index without the values of a key. -/
def without (ix : Index κ α) (k : κ) : Index κ α :=
  ⟨leaveOut k ix.buckets⟩

omit [DecidableEq κ] in
/-- The values of all keys, bucket by bucket. -/
def values (ix : Index κ α) : List α :=
  ix.buckets.flatMap (·.2)

omit [DecidableEq κ] in
/-- The number of values. -/
def size (ix : Index κ α) : Nat :=
  ix.values.length

/-! ### Laws -/

/-- Filing a value puts it at the end of its own bucket and leaves the others. -/
theorem get_file (ix : Index κ α) (k k' : κ) (a : α) :
    (ix.file k a).get k' = if k' = k then ix.get k' ++ [a] else ix.get k' := by
  obtain ⟨bs⟩ := ix
  simp only [get, file]
  induction bs with
  | nil => by_cases h : k = k' <;> simp [fileIn, valuesIn, h, eq_comm]
  | cons b bs ih => grind [fileIn, valuesIn]

theorem get_without_self (ix : Index κ α) (k : κ) : (ix.without k).get k = [] := by
  obtain ⟨bs⟩ := ix
  simp only [get, without]
  induction bs with
  | nil => rfl
  | cons b bs ih => grind [leaveOut, valuesIn]

theorem get_without_of_ne (ix : Index κ α) {k k' : κ} (h : k' ≠ k) :
    (ix.without k).get k' = ix.get k' := by
  obtain ⟨bs⟩ := ix
  simp only [get, without]
  induction bs with
  | nil => rfl
  | cons b bs ih => grind [leaveOut, valuesIn]

omit [DecidableEq κ] in
private theorem length_flatMap_cons (b : κ × List α) (bs : List (κ × List α)) :
    ((b :: bs).flatMap (·.2)).length = b.2.length + (bs.flatMap (·.2)).length := by
  simp

private theorem length_leaveOut_le (k : κ) (bs : List (κ × List α)) :
    ((leaveOut k bs).flatMap (·.2)).length ≤ (bs.flatMap (·.2)).length := by
  induction bs with
  | nil => simp [leaveOut]
  | cons b bs ih => grind [leaveOut, length_flatMap_cons]

/-- Leaving out a bucket leaves out all of its values. -/
theorem size_without_add_le (ix : Index κ α) (k : κ) :
    (ix.without k).size + (ix.get k).length ≤ ix.size := by
  obtain ⟨bs⟩ := ix
  simp only [get, without, size, values]
  induction bs with
  | nil => simp [leaveOut, valuesIn]
  | cons b bs ih => grind [leaveOut, valuesIn, length_flatMap_cons, length_leaveOut_le]

end Index

end Chunker
