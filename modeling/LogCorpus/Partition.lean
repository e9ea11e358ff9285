/-
Partitions of a dataset.

A list is cut by position into a train, a validation and a test part, each of
which may then be shuffled within itself.  Items of one group never lie on both
sides of a boundary: a part takes over the items at the start of the next one
that belong to the group of its own last item, as long as the next one keeps
some.
-/
import LogCorpus.Occurrence.Basic
import LogCorpus.Random.Shuffle

namespace LogCorpus

/-- The three parts of a dataset. -/
structure Partition (α : Type) where
  train : List α
  validation : List α
  test : List α
deriving Repr, DecidableEq

namespace Partition

/-- The number of items in all parts. -/
def total (parts : Partition α) : Nat :=
  parts.train.length + parts.validation.length + parts.test.length

/-- Shuffle every part within itself, with one source of words. -/
def shuffle (source : WordSource σ) (parts : Partition α) (state : σ) :
    Partition α × σ :=
  let (train, state) := LogCorpus.shuffle source parts.train state
  let (validation, state) := LogCorpus.shuffle source parts.validation state
  let (test, state) := LogCorpus.shuffle source parts.test state
  (⟨train, validation, test⟩, state)

end Partition

/-- The places where a list is cut: the test part starts at the first, the
validation part at the second. -/
structure Cuts where
  test : Nat
  validation : Nat
deriving Repr, DecidableEq

/-- The cuts of `count` items.  Both fractions refer to all items, and the
validation part never starts after the test part.  A product is rounded down; one
that is no number counts as zero, one outside the range of machine words as the
nearest word. -/
def cutPoints (count : Nat) (train validation : Float) : Cuts :=
  let total := Float.ofNat count
  -- the conversion to a word drops the fraction, and what is negative becomes zero
  let test := min (train * total).toUInt64.toNat count
  let validation := min ((1.0 - validation) * total).toUInt64.toNat test
  ⟨test, validation⟩

/-- Move the items at the start of `later` that belong to the group of the last
item of `earlier`.  It is a fault if this leaves nothing of a part that had
items. -/
def rebalance (group : α → String) (laterName : String)
    (earlier later : List α) : Except Fault (List α × List α) :=
  match earlier.getLast? with
  | none => .ok (earlier, later)
  | some last =>
      let moved := later.takeWhile fun item => group item = group last
      if moved.length = 0 then .ok (earlier, later)
      else if moved.length = later.length then
        .error (.partitionTooSmall laterName)
      else .ok (earlier ++ moved, later.drop moved.length)

/-- Cut a list at two places and keep groups together. -/
def partitionAt (group : α → String) (items : List α) (cuts : Cuts) :
    Except Fault (Partition α) := do
  let train := items.take cuts.validation
  let validation := (items.take cuts.test).drop cuts.validation
  let test := items.drop cuts.test
  let (train, validation) ← rebalance group "validation" train validation
  if validation.isEmpty then
    let (train, test) ← rebalance group "test" train test
    return ⟨train, validation, test⟩
  else
    let (validation, test) ← rebalance group "test" validation test
    return ⟨train, validation, test⟩

/-- Cut a list by position and keep groups together. -/
def splitByPosition (group : α → String) (items : List α)
    (train validation : Float) : Except Fault (Partition α) :=
  partitionAt group items (cutPoints items.length train validation)

/-- Cut a list by position and shuffle every part. -/
def partition (group : α → String) (source : WordSource σ) (items : List α)
    (train validation : Float) (state : σ) :
    Except Fault (Partition α × σ) :=
  (splitByPosition group items train validation).map fun parts =>
    parts.shuffle source state

end LogCorpus
