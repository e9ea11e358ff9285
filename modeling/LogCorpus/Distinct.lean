/-
The first element of each key.

`firstOfEach` keeps the elements whose key has not occurred before.  The keys
seen so far are held in a search tree, so a list of `n` elements takes
`n log n` comparisons.
-/
import Std.Data.TreeSet

namespace LogCorpus

variable {α : Type} {κ : Type} [Ord κ]

/-- Keep the elements whose key is neither in `seen` nor the key of an earlier
element. -/
def freshOfEach (key : α → κ) (seen : Std.TreeSet κ) : List α → List α
  | [] => []
  | item :: rest =>
      if seen.contains (key item) then freshOfEach key seen rest
      else item :: freshOfEach key (seen.insert (key item)) rest

/-- Keep the first element of each key, in order. -/
def firstOfEach (key : α → κ) (items : List α) : List α :=
  freshOfEach key ∅ items

/-- The first element whose key is in `seen` or belongs to an earlier one. -/
def repeatOf? (key : α → κ) (seen : Std.TreeSet κ) : List α → Option α
  | [] => none
  | item :: rest =>
      if seen.contains (key item) then some item
      else repeatOf? key (seen.insert (key item)) rest

/-- The first element whose key belongs to an earlier element. -/
def firstRepeat? (key : α → κ) (items : List α) : Option α :=
  repeatOf? key ∅ items

end LogCorpus
