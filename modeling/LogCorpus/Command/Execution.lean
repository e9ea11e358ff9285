/-
Execution of the commands.

A command works on a disk and yields the text that it prints; if it fails, it
prints nothing.  Paths are checked in the order in which they are used.
-/
import LogCorpus.Command.Display
import LogCorpus.Command.Invocation
import LogCorpus.Corpus.Basic
import LogCorpus.Corpus.Excision
import LogCorpus.Graph.Dot
import LogCorpus.Occurrence.Index
import LogCorpus.Random.Generator
import LogCorpus.Settings.Basic

namespace LogCorpus

/-- The largest index file, in bytes: 512 MiB. -/
def maxIndexBytes : Nat :=
  512 * 1024 * 1024

/-- The canonical path of a file. -/
def filePath (path : String) (disk : Disk) : Except Fault String := do
  let canonical ←
    (disk.canonicalPath path).mapError
      (DiskFault.toFault s!"Invalid file path '{path}'")
  if disk.isFile canonical then return canonical
  else throw (.io s!"Path '{path}' is not a regular file")

/-- The canonical path of a directory. -/
def directoryPath (path : String) (disk : Disk) : Except Fault String := do
  let canonical ←
    (disk.canonicalPath path).mapError
      (DiskFault.toFault s!"Invalid directory '{path}'")
  if disk.isDirectory canonical then return canonical
  else throw (.io s!"Path '{path}' is not a directory")

/-- A file must not be larger than a limit. -/
def checkSize (path : String) (limit : Nat) (disk : Disk) :
    Except Fault Unit := do
  let size ←
    (disk.size path).mapError (DiskFault.toFault "Cannot read file metadata")
  if limit < size then
    throw (.serialization
      s!"File size {size} bytes exceeds maximum allowed {limit} bytes")

/-- The occurrences of the index file that is named on the command line. -/
def loadIndex (path : String) (disk : Disk) :
    Except Fault (List Occurrence) := do
  let path ← filePath path disk
  checkSize path maxIndexBytes disk
  readIndex path disk

/-- The text of a value that is printed as JSON. -/
def Json.printed (value : Json) : String :=
  value.renderIndented ++ "\n"

namespace Invocation

/-- What is printed: JSON if that is asked for, else lines unless the program is
to be quiet. -/
def display (invocation : Invocation) (json : Json) (lines : List String) :
    String :=
  if invocation.jsonMode then json.printed
  else if invocation.quiet then ""
  else unlines lines

/-- Write the index of the logging statements of a corpus. -/
def runDetect (invocation : Invocation) (location output : String) :
    OnDisk String := do
  let corpus : Corpus := ⟨← OnDisk.look (directoryPath location)⟩
  let occurrences ← OnDisk.look corpus.detect
  writeIndex output occurrences
  return invocation.display
    (.ofMembers [
      ("corpus", .text corpus.root),
      ("index", .text output),
      ("occurrences", .natural occurrences.length)])
    [s!"Logs found: {occurrences.length}", s!"Index written to {output}"]

/-- The root of the corpus of a conversion: the one given, else that of the
settings, else the directory of the index. -/
def corpusRoot (settings : Settings) (arguments : ConvertArguments)
    (indexFile : String) (disk : Disk) : Except Fault String :=
  match arguments.corpus <|> settings.corpus with
  | some root => directoryPath root disk
  | none => .ok ((parentPath? indexFile).getD ".")

/-- Convert the occurrences of an index, or a single one. -/
def runConvert (invocation : Invocation) (fresh : Generator)
    (settings : Settings) (arguments : ConvertArguments) : OnDisk String := do
  let config := arguments.overrides.apply settings.convert
  OnDisk.look fun _ => config.validate
  let indexFile ← OnDisk.look (filePath arguments.indexFile)
  let corpus : Corpus :=
    ⟨← OnDisk.look (corpusRoot settings arguments indexFile)⟩
  let occurrences ← OnDisk.look (loadIndex indexFile)
  match arguments.debug with
  | some place =>
      let training ← OnDisk.look
        (convertSingle config wordTokens corpus occurrences place)
      return unlines [training.line]
  | none =>
      let start := (config.seed.map Generator.ofSeed).getD fresh
      let summary ← runConversion config Generator.next start wordTokens corpus
        occurrences arguments.directory
      return invocation.display summary.toJson summary.lines

/-- Write a modified corpus and its index. -/
def runExcise (invocation : Invocation)
    (indexFile location target : String) (indexOut : Option String) :
    OnDisk String := do
  let occurrences ← OnDisk.look (loadIndex indexFile)
  let source : Corpus := ⟨← OnDisk.look (directoryPath location)⟩
  let (rows, report) ← source.exciseAll ⟨target⟩ occurrences
  let output := indexOut.getD (joinPath target "index.json")
  writeIndex output rows
  return invocation.display
    (.ofMembers [
      ("corpus", .text target),
      ("index", .text output),
      ("report", report.toJson)])
    (report.lines ++ [s!"Index written to {output}"])

/-- The graph of a record that is named on the command line. -/
def loadRecord (graphFile : String) (disk : Disk) : Except Fault Graph := do
  let path ← filePath graphFile disk
  checkSize path maxRecordBytes disk
  readRecordFile path disk

/-- Print the graph of a record in the DOT language, or write it to a file. -/
def runDot (graphFile : String) (output : Option String) : OnDisk String := do
  let graph ← OnDisk.look (loadRecord graphFile)
  match output with
  | some path =>
      OnDisk.change s!"Cannot write '{path}'" (·.write path (utf8 graph.toDot))
      return ""
  | none => return graph.toDot

/-- Print the statistics of an index. -/
def runStats (invocation : Invocation) (indexFile : String) :
    OnDisk String := do
  let occurrences ← OnDisk.look (loadIndex indexFile)
  let statistics := Statistics.ofOccurrences occurrences
  if invocation.jsonMode then return statistics.toJson.printed
  else return unlines statistics.lines

/-- Do what the program is asked to do; the result is the text to print.  A
conversion without a seed takes its random words from `fresh`. -/
def execute (invocation : Invocation) (fresh : Generator) : OnDisk String := do
  let settings ← OnDisk.look (Settings.load invocation.config)
  match invocation.command with
  | .detect location output => invocation.runDetect location output
  | .convert arguments => invocation.runConvert fresh settings arguments
  | .excise indexFile location target indexOut =>
      invocation.runExcise indexFile location target indexOut
  | .dot graphFile output => runDot graphFile output
  | .stats indexFile => invocation.runStats indexFile

end Invocation

end LogCorpus
