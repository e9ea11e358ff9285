/-
Dataset files: the examples of each part, one on a line.

A directory holds one file for each part of the dataset.  With compression the
plain file is written first and removed when its packed form is complete.
-/
import LogCorpus.Partition
import LogCorpus.Storage.Gzip
import LogCorpus.Storage.OnDisk
import LogCorpus.Training.Example

namespace LogCorpus

/-- The parts of a dataset. -/
inductive Part where
  | train
  | validation
  | test
deriving Repr, DecidableEq

namespace Part

def all : List Part :=
  [train, validation, test]

def name : Part → String
  | train => "train"
  | validation => "validation"
  | test => "test"

/-- The part of this exact name. -/
def ofName? (text : String) : Option Part :=
  all.find? fun part => part.name = text

/-- The name of the file that holds a part. -/
def fileName : Part → String
  | train => "trainLogs.jsonl"
  | validation => "validationLogs.jsonl"
  | test => "testLogs.jsonl"

end Part

/-- The items of one part. -/
def Partition.items (parts : Partition α) : Part → List α
  | .train => parts.train
  | .validation => parts.validation
  | .test => parts.test

/-- Examples on lines of their own. -/
def renderLines (examples : List TrainingExample) : String :=
  String.join (examples.map fun training => training.line ++ "\n")

/-- The directory of a dataset, and whether its files are compressed. -/
structure Dataset where
  directory : String
  compress : Bool
deriving Repr, DecidableEq

namespace Dataset

/-- Make the directory. -/
def prepare (dataset : Dataset) : OnDisk Unit :=
  OnDisk.makeDirectories dataset.directory

/-- The path of the plain file of a part. -/
def plainPath (dataset : Dataset) (part : Part) : String :=
  joinPath dataset.directory part.fileName

/-- The path of the packed form of a file. -/
def packedPath (path : String) : String :=
  path ++ ".gz"

/-- Write the examples of a part; the result is the path of the file. -/
def writePart (dataset : Dataset) (part : Part)
    (examples : List TrainingExample) : OnDisk String := do
  let plain := dataset.plainPath part
  let bytes := utf8 (renderLines examples)
  OnDisk.change s!"Cannot create '{plain}'" (·.write plain bytes)
  if dataset.compress then
    let packed := packedPath plain
    OnDisk.change s!"Cannot create '{packed}'" (·.write packed (gzip bytes))
    OnDisk.change s!"Cannot remove '{plain}'" (·.remove plain)
    return packed
  else return plain

end Dataset

end LogCorpus
