/-
Batches: conversion of many occurrences.

Workers convert the occurrences of a batch and send each outcome with its place.
The coordinator puts the outcomes into one slot per place, so the order in which
they arrive does not show in the batch.
-/
import LogCorpus.Corpus.Basic
import LogCorpus.Report
import LogCorpus.Statement.Excision
import LogCorpus.Training.Projection

namespace LogCorpus

/-- A way to convert occurrences: the corpus, the projector and the largest
number of nodes of a graph. -/
structure Converter where
  corpus : Corpus
  projector : Projector
  maxGraphNodes : Nat

/-- The outcome of a conversion. -/
abbrev ConversionOutcome := Except Fault TrainingExample

namespace Converter

/-- The graph of an occurrence without its statement.  An occurrence without a
root refers to a graph whose statement is gone already. -/
def excised (graph : Graph) (occurrence : Occurrence) : Except Fault Graph :=
  match occurrence.root with
  | some root => (graph.excise root).map Excision.graph
  | none => .ok graph

/-- Convert one occurrence. -/
def convert (converter : Converter) (disk : Disk) (occurrence : Occurrence) :
    ConversionOutcome := do
  let graph ← converter.corpus.load occurrence.graphPath disk
  if converter.maxGraphNodes < graph.nodeCount then
    throw (.graphTooLarge graph.nodeCount converter.maxGraphNodes)
  let graph ← excised graph occurrence
  converter.projector.project graph occurrence

end Converter

/-- An outcome that arrives from a worker, with the place of its item. -/
abbrev Arrival := Nat × ConversionOutcome

/-- Slots for outcomes, filled by the arrivals so far. -/
def fillSlots (count : Nat) (arrivals : List Arrival) :
    Array (Option ConversionOutcome) :=
  arrivals.foldl
    (fun slots arrival => slots.setIfInBounds arrival.1 (some arrival.2))
    (Array.replicate count none)

/-- The outcome in a slot.  A slot stays empty if no worker sends the outcome
of its item. -/
def slotOutcome (slot : Option ConversionOutcome) : ConversionOutcome :=
  slot.getD (.error (.invalidOccurrence "worker finished without a result"))

/-- The examples of a batch, in the order of the occurrences, its report, and
how many items out of all were done after each arrival. -/
structure Batch where
  examples : List TrainingExample
  report : Report
  progress : List (Nat × Nat)
deriving Repr, DecidableEq

namespace Batch

/-- The batch of a list of occurrences, whatever the order of arrivals. -/
def ofArrivals (occurrences : List Occurrence) (arrivals : List Arrival) :
    Batch :=
  let count := occurrences.length
  let outcomes := (fillSlots count arrivals).toList.map slotOutcome
  { examples := successes outcomes
    report := .ofOutcomes (occurrences.zip outcomes)
    progress := (List.range arrivals.length).map fun done =>
      (done + 1, count) }

end Batch

/-- Convert a list of occurrences. -/
def Converter.convertAll (converter : Converter) (disk : Disk)
    (occurrences : List Occurrence) : Batch :=
  .ofArrivals occurrences <|
    occurrences.zipIdx.map fun (occurrence, place) =>
      (place, converter.convert disk occurrence)

end LogCorpus
