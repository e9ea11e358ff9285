/-
Corpora: directories of graph records.

A record is addressed by its path below the root of the corpus; an absolute path
addresses a record outside.  The records of a corpus are listed depth first, the
entries of each directory by name.  The logging statements of a corpus are those
of all its records, in this order; a record that cannot be read has none.
-/
import LogCorpus.Occurrence.Detection
import LogCorpus.Record.Basic
import LogCorpus.Storage.OnDisk

namespace LogCorpus

/-- The graph in a record file.  The header is checked before the rest of the
file is read. -/
def readRecordFile (path : String) (disk : Disk) : Except Fault Graph := do
  let fault := DiskFault.toFault s!"Cannot read '{path}'"
  let start ← (disk.readStart headerLength path).mapError fault
  let _ ← (splitHeader start).mapError RecordFault.toFault
  Graph.ofRecord (← (disk.read path).mapError fault)

/-- The directory of a corpus. -/
structure Corpus where
  root : String
deriving Repr, DecidableEq

/-- The ending of the names of graph records. -/
def recordEnding : FileName :=
  ".proto"

/-- Is this the name of a graph record?  Something must stand in front of the
ending. -/
def isRecordName (name : FileName) : Bool :=
  recordEnding.bytes.isSuffixOf name.bytes &&
    recordEnding.bytes.length < name.bytes.length

/-- A path with slashes for backslashes. -/
def withSlashes (path : String) : String :=
  String.ofList (path.toList.map fun c => if c = '\\' then '/' else c)

namespace Corpus

/-- The path of a record on the disk. -/
def resolve (corpus : Corpus) (graphPath : String) : String :=
  joinPath corpus.root graphPath

/-- The graph in a record. -/
def load (corpus : Corpus) (graphPath : String) (disk : Disk) :
    Except Fault Graph := do
  let path := corpus.resolve graphPath
  let size ←
    (disk.size path).mapError (DiskFault.toFault s!"Cannot open '{path}'")
  if maxRecordBytes < size then
    throw (.serialization
      s!"'{path}' is {size} bytes, limit is {maxRecordBytes}")
  readRecordFile path disk

/-- Make the directory of a record if it is missing. -/
def prepare (corpus : Corpus) (graphPath : String) : OnDisk Unit :=
  match parentPath? (corpus.resolve graphPath) with
  | some parent => OnDisk.makeDirectories parent
  | none => pure ()

/-- Write the record of a graph, in a directory that there is. -/
def writeRecord (corpus : Corpus) (graphPath : String) (graph : Graph) :
    OnDisk Unit :=
  let path := corpus.resolve graphPath
  OnDisk.change s!"Cannot write '{path}'" (·.write path graph.toRecord)

/-- Write the record of a graph, in a directory that is made if it is missing. -/
def store (corpus : Corpus) (graphPath : String) (graph : Graph) :
    OnDisk Unit := do
  corpus.prepare graphPath
  corpus.writeRecord graphPath graph

/-- The names that lead from a location to the records at or below it. -/
def recordsBelow (disk : Disk) (place : Location) : List Location :=
  (disk.filesBelow place).filter fun names =>
    (place ++ names).getLast?.any isRecordName

/-- The path under which the record with these names is listed: what can be read of
it, with slashes for backslashes. -/
def listedPath (names : Location) : String :=
  withSlashes (lossyText ([0x2f].intercalate (names.map FileName.bytes)))

/-- Is the directory with these names too far down to be read? -/
def isTooDeep (corpus : Corpus) (names : Location) : Bool :=
  Disk.maxPathBytes < (pathBelow corpus.root names).length

/-- The failure of a walk of a corpus at some path. -/
def walkFault (path : String) (cause : DiskFault) : Fault :=
  cause.toFault s!"IO error for operation on {path}"

/-- The paths of all records of a corpus.  There are none if a directory in it
cannot be read. -/
def graphFiles (corpus : Corpus) (disk : Disk) : Except Fault (List String) :=
  match disk.lookup corpus.root with
  | .ok (place, _) =>
      match (disk.directoriesBelow place).find? corpus.isTooDeep with
      | some names =>
          .error (walkFault (lossyText (pathBelow corpus.root names)) .nameTooLong)
      | none => .ok ((recordsBelow disk place).map listedPath)
  | .error cause => .error (walkFault corpus.root cause)

/-- The number of occurrences whose record does not exist. -/
def countMissing (corpus : Corpus) (occurrences : List Occurrence)
    (disk : Disk) : Nat :=
  occurrences.countP fun occurrence =>
    !disk.isFile (corpus.resolve occurrence.graphPath)

/-- The logging statements of one record. -/
def statementsOf (corpus : Corpus) (disk : Disk) (graphPath : String) :
    List Occurrence :=
  match corpus.load graphPath disk with
  | .ok graph => graph.statements graphPath
  | .error _ => []

/-- The logging statements of a corpus. -/
def detect (corpus : Corpus) (disk : Disk) : Except Fault (List Occurrence) :=
  (corpus.graphFiles disk).map fun paths =>
    paths.flatMap (corpus.statementsOf disk)

end Corpus

end LogCorpus
