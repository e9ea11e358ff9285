/-
Conversion runs: from an index and a corpus to the files of a dataset.

All checks of a run come before the first change on the disk.  The failure of an
occurrence is reported and does not stop the run.
-/
import LogCorpus.Configuration
import LogCorpus.Conversion.Batch
import LogCorpus.Conversion.Dataset
import LogCorpus.Occurrence.Statistics

namespace LogCorpus

/-- The occurrences of a run: the first ones up to the limit, then, if so
configured, the first of each group. -/
def selectOccurrences (config : Configuration)
    (occurrences : List Occurrence) : List Occurrence :=
  let limited :=
    match config.limit with
    | some limit => occurrences.take limit
    | none => occurrences
  if config.disallowSameClass then firstOfEachGroup limited else limited

/-- Occurrences that all lack their record belong to another corpus. -/
def Corpus.checkMatches (corpus : Corpus) (occurrences : List Occurrence)
    (disk : Disk) : Except Fault Unit :=
  let count := occurrences.length
  if count ≠ 0 ∧ corpus.countMissing occurrences disk = count then
    .error (.invalidConfig
      s!"none of the {count} indexed graphs exist under '{corpus.root}'")
  else .ok ()

/-- The converter of a run. -/
def Configuration.converter (config : Configuration) (corpus : Corpus)
    (tokenizer : Tokenizer) : Converter :=
  ⟨corpus, ⟨config.mode, tokenizer⟩, config.maxGraphNodes⟩

/-- What became of one part: the number of its occurrences, the number of the
examples written, and the path of its file. -/
structure PartSummary where
  part : Part
  size : Nat
  written : Nat
  output : String
deriving Repr, DecidableEq

/-- What became of a run. -/
structure RunSummary where
  statistics : Statistics
  parts : List PartSummary
  report : Report
deriving Repr, DecidableEq

/-- The parts of a run, before anything is changed on the disk, with the
statistics of all its occurrences. -/
def planRun (config : Configuration) (source : WordSource σ) (state : σ)
    (corpus : Corpus) (occurrences : List Occurrence) (disk : Disk) :
    Except Fault (Statistics × Partition Occurrence) := do
  config.validate
  let selected := selectOccurrences config occurrences
  corpus.checkMatches selected disk
  let (parts, _) ←
    partition Occurrence.group source selected config.trainFraction
      config.validationFraction state
  return (.ofOccurrences selected, parts)

/-- Convert the occurrences of one part and write their examples. -/
def convertPart (converter : Converter) (dataset : Dataset) (part : Part)
    (occurrences : List Occurrence) : OnDisk (PartSummary × Report) := do
  let batch ←
    OnDisk.look fun disk => .ok (converter.convertAll disk occurrences)
  let output ← dataset.writePart part batch.examples
  return (⟨part, occurrences.length, batch.examples.length, output⟩,
    batch.report)

/-- Convert occurrences and write a dataset.  The words of the source decide the
order within the parts. -/
def runConversion (config : Configuration) (source : WordSource σ) (state : σ)
    (tokenizer : Tokenizer) (corpus : Corpus) (occurrences : List Occurrence)
    (directory : String) : OnDisk RunSummary := do
  let (statistics, parts) ←
    OnDisk.look (planRun config source state corpus occurrences)
  let dataset : Dataset := ⟨directory, config.compress⟩
  dataset.prepare
  let converter := config.converter corpus tokenizer
  let outcomes ← Part.all.mapM fun part =>
    convertPart converter dataset part (parts.items part)
  return {
    statistics
    parts := outcomes.map Prod.fst
    report := (outcomes.map Prod.snd).foldl Report.merge {} }

/-- Convert the occurrence at a place alone. -/
def convertSingle (config : Configuration) (tokenizer : Tokenizer)
    (corpus : Corpus) (occurrences : List Occurrence) (place : Nat)
    (disk : Disk) : Except Fault TrainingExample :=
  match occurrences[place]? with
  | some occurrence =>
      (config.converter corpus tokenizer).convert disk occurrence
  | none =>
      let count := occurrences.length
      .error (.invalidConfig
        s!"debug index {place} out of range for {count} occurrences")

end LogCorpus
