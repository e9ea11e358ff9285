/-
Reports: what became of the items of a batch.

Every item succeeds or fails; a failure keeps the item's place in the batch.
Reports of several batches add up.
-/
import LogCorpus.Occurrence.Basic
import Std.Data.TreeMap

namespace LogCorpus

/-- An item that failed. -/
structure ItemFailure where
  /-- The place of the item in its batch. -/
  index : Nat
  graphPath : String
  fault : Fault
deriving Repr, DecidableEq

/-- What became of the items of a batch. -/
structure Report where
  total : Nat := 0
  succeeded : Nat := 0
  failures : List ItemFailure := []
deriving Repr, DecidableEq

/-- The number of paths that a report shows as samples. -/
def maxSamples : Nat :=
  10

namespace Report

/-- The items of a batch that failed, in order, where the first item has the
given place. -/
def failuresFrom (place : Nat) :
    List (Occurrence × Except Fault α) → List ItemFailure
  | [] => []
  | (occurrence, .error fault) :: rest =>
      ⟨place, occurrence.graphPath, fault⟩ :: failuresFrom (place + 1) rest
  | (_, .ok _) :: rest => failuresFrom (place + 1) rest

/-- The report of a batch. -/
def ofOutcomes (outcomes : List (Occurrence × Except Fault α)) : Report where
  total := outcomes.length
  succeeded := outcomes.countP fun entry => entry.2.isOk
  failures := failuresFrom 0 outcomes

theorem length_failuresFrom (place : Nat)
    (outcomes : List (Occurrence × Except Fault α)) :
    (failuresFrom place outcomes).length =
      outcomes.countP fun entry => !entry.2.isOk := by
  induction outcomes generalizing place with
  | nil => rfl
  | cons entry rest ih =>
      obtain ⟨occurrence, outcome⟩ := entry
      cases outcome <;> simp [failuresFrom, Except.isOk, Except.toBool, ih]

/-- Every item of a batch succeeds or fails. -/
theorem succeeded_add_failures
    (outcomes : List (Occurrence × Except Fault α)) :
    (ofOutcomes outcomes).succeeded + (ofOutcomes outcomes).failures.length =
      (ofOutcomes outcomes).total := by
  simp only [ofOutcomes, length_failuresFrom]
  simpa using (List.length_eq_countP_add_countP (l := outcomes)
    (fun entry => entry.2.isOk)).symm

/-- Two reports as one. -/
def merge (first second : Report) : Report where
  total := first.total + second.total
  succeeded := first.succeeded + second.succeeded
  failures := first.failures ++ second.failures

/-- The number of failures for each reason, by the name of the reason. -/
def reasons (report : Report) : List (String × Nat) :=
  let counts : Std.TreeMap String Nat :=
    report.failures.foldl
      (fun counts failure =>
        counts.alter failure.fault.reason fun count => some (count.getD 0 + 1))
      ∅
  counts.toList

/-- The paths of the first failures. -/
def samplePaths (report : Report) : List String :=
  (report.failures.take maxSamples).map ItemFailure.graphPath

end Report

/-- The values of the items that succeeded, in order. -/
def successes (outcomes : List (Except Fault α)) : List α :=
  outcomes.filterMap Except.toOption

end LogCorpus
