/-
Modified corpora: one excised record for each occurrence.

The records of the occurrences of one source record are numbered from one, in
the order of the occurrences.  The new index refers to the records written; its
rows have no root.  `exciseAll` takes the occurrences one after the other; in
`Excising`, workers go on with them in any order, step by step.
-/
import LogCorpus.Corpus.Basic
import LogCorpus.Occurrence.Basic
import LogCorpus.Report
import LogCorpus.Statement.Excision

namespace LogCorpus

/-- Number each path by how often it has occurred, on top of the counts so
far. -/
def numberPaths (counts : Std.TreeMap String Nat) : List String → List String
  | [] => []
  | path :: rest =>
      let number := counts.getD path 0 + 1
      numberedPath path number :: numberPaths (counts.insert path number) rest

/-- The path of the excised record of each occurrence. -/
def destinations (occurrences : List Occurrence) : List String :=
  numberPaths ∅ (occurrences.map Occurrence.graphPath)

/-- The occurrence without its root, in another record. -/
def Occurrence.moveTo (occurrence : Occurrence) (graphPath : String) :
    Occurrence :=
  { occurrence with graphPath, root := none }

namespace Corpus

/-- The record of an occurrence without its statement. -/
def exciseOne (corpus : Corpus) (occurrence : Occurrence) (disk : Disk) :
    Except Fault Graph :=
  match occurrence.root with
  | none =>
      .error (.invalidOccurrence s!"{occurrence.graphPath} has no root id")
  | some root => do
      let graph ← corpus.load occurrence.graphPath disk
      let excision ← graph.excise root
      return excision.graph

/-- Write the excised record of an occurrence. -/
def exciseInto (source target : Corpus) (occurrence : Occurrence)
    (destination : String) : OnDisk Unit := do
  let graph ← OnDisk.look (source.exciseOne occurrence)
  target.store destination graph

/-- Write the excised record of every occurrence; the result is the index of
the records written and the report. -/
def exciseAll (source target : Corpus) (occurrences : List Occurrence) :
    OnDisk (List Occurrence × Report) := do
  let items := occurrences.zip (destinations occurrences)
  let outcomes ← items.mapM fun (occurrence, destination) =>
    OnDisk.attempt do
      source.exciseInto target occurrence destination
      return occurrence.moveTo destination
  return (successes outcomes, .ofOutcomes (occurrences.zip outcomes))

/-- How far the work on an occurrence has come. -/
inductive Work where
  | waiting
  | excised (graph : Graph)
  | prepared (graph : Graph)
  | ended (outcome : Except Fault Unit)

/-- A worker goes on with an occurrence: it excises the graph, makes the directory of
the record and writes the record.  A failure ends the work. -/
def Work.next (source target : Corpus) (item : Occurrence × String) (disk : Disk) :
    Work → Work × Disk
  | waiting =>
      match source.exciseOne item.1 disk with
      | .ok graph => (excised graph, disk)
      | .error fault => (ended (.error fault), disk)
  | excised graph =>
      match (target.prepare item.2).run disk with
      | (.ok _, changed) => (prepared graph, changed)
      | (.error fault, changed) => (ended (.error fault), changed)
  | prepared graph =>
      let (outcome, changed) := (target.writeRecord item.2 graph).run disk
      (ended outcome, changed)
  | ended outcome => (ended outcome, disk)

/-- Workers on the occurrences of a list: the disk, and how far the work on each
occurrence has come, by its place. -/
structure Excising where
  disk : Disk
  work : Nat → Work := fun _ => .waiting

namespace Excising

/-- A worker goes on with the occurrence at a place, if there is one. -/
def step (source target : Corpus) (items : List (Occurrence × String))
    (excising : Excising) (place : Nat) : Excising :=
  match items[place]? with
  | some item =>
      let (next, disk) := (excising.work place).next source target item excising.disk
      { disk, work := fun other => if other = place then next else excising.work other }
  | none => excising

/-- Workers go on with the occurrences in the order of a schedule. -/
def run (source target : Corpus) (items : List (Occurrence × String))
    (schedule : List Nat) (excising : Excising) : Excising :=
  schedule.foldl (step source target items) excising

/-- The outcome of the occurrence at a place, if the work on it has ended. -/
def outcomeAt? (excising : Excising) (entry : (Occurrence × String) × Nat) :
    Option (Except Fault Occurrence) :=
  match excising.work entry.2 with
  | .ended outcome => some (outcome.map fun _ => entry.1.1.moveTo entry.1.2)
  | _ => none

/-- The outcomes of the occurrences, in their order, if all have ended. -/
def outcomes? (items : List (Occurrence × String)) (excising : Excising) :
    Option (List (Except Fault Occurrence)) :=
  items.zipIdx.mapM excising.outcomeAt?

end Excising

end Corpus

end LogCorpus
