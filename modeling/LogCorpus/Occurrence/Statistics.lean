/-
Statistics of a list of occurrences: how many there are of each severity, in
how many files and in how many groups.

They are found in one pass as well.  It counts each occurrence under its severity
and keeps the paths and the groups that it has met.  The count of every severity
starts at zero, so a severity that does not occur is listed too.
-/
import LogCorpus.Occurrence.Basic
import Std.Data.TreeMap

namespace LogCorpus

/-- The counts of a list of occurrences. -/
structure Statistics where
  total : Nat
  perSeverity : List (Severity × Nat)
  files : Nat
  groups : Nat
deriving Repr, DecidableEq

namespace Statistics

/-- Count a list of occurrences.  Every severity is listed, in ascending
order. -/
def ofOccurrences (occurrences : List Occurrence) : Statistics where
  total := occurrences.length
  perSeverity :=
    Severity.all.map fun severity =>
      (severity, occurrences.countP fun row => row.severity = severity)
  files := (firstOfEach Occurrence.graphPath occurrences).length
  groups := (firstOfEach Occurrence.group occurrences).length

/-- The number of occurrences of one severity. -/
def count (statistics : Statistics) (severity : Severity) : Nat :=
  (statistics.perSeverity.lookup severity).getD 0

end Statistics

/-! ### One pass -/

/-- What the occurrences so far have shown. -/
structure Tally where
  perSeverity : Std.TreeMap Severity Nat :=
    .ofList (Severity.all.map fun severity => (severity, 0))
  files : Std.TreeSet String := ∅
  groups : Std.TreeSet String := ∅

/-- Go on with an occurrence. -/
def Tally.step (tally : Tally) (occurrence : Occurrence) : Tally where
  perSeverity :=
    tally.perSeverity.alter occurrence.severity fun count => some (count.getD 0 + 1)
  files := tally.files.insert occurrence.graphPath
  groups := tally.groups.insert occurrence.group

/-- The counts of a list of occurrences, found in one pass. -/
def Statistics.tallied (occurrences : List Occurrence) : Statistics :=
  let tally := occurrences.foldl Tally.step {}
  { total := occurrences.length
    perSeverity := tally.perSeverity.toList
    files := tally.files.size
    groups := tally.groups.size }

end LogCorpus
