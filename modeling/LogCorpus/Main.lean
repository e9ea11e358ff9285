/-
The program.

Everything that a command may look at is copied onto a disk in memory before the
command runs, and what it has changed there is written back afterwards.
-/
import LogCorpus.Command.Execution

namespace LogCorpus

/-- The location that a path leads to if nothing on the way is missing. -/
def Disk.spotOf (disk : Disk) (path : String) : Option Location :=
  match disk.start path with
  | .ok (place, parts) => (parts.foldlM Disk.follow place).toOption
  | .error _ => none

/-- Copy what is at a location, if there is anything.  A file that is larger
than any command reads is not copied in full. -/
def copyEntry (disk : Disk) (place : Location) : IO Disk := do
  try
    let real ← IO.FS.realPath place.toPath
    let metadata ← real.metadata
    if ← real.isDir then return disk.put place .directory
    else if maxIndexBytes < metadata.byteSize.toNat then
      return disk.put place (.file (.zeros metadata.byteSize.toNat))
    else
      let bytes ← IO.FS.readBinFile real
      return disk.put place (.file (.bytes bytes.data.toList))
  catch _ => return disk

/-- Copy what a path leads to and the directories on the way. -/
def copyPath (disk : Disk) (path : String) : IO Disk :=
  match disk.spotOf path with
  | some place =>
      (List.range place.length).foldlM
        (fun disk above => copyEntry disk (place.take (above + 1))) disk
  | none => return disk

/-- Copy everything below a location. -/
partial def copyTree (disk : Disk) (place : Location) : IO Disk := do
  let disk ← copyEntry disk place
  match disk.find? place with
  | some .directory =>
      let real ← IO.FS.realPath place.toPath
      (← real.readDir).foldlM
        (fun disk entry => copyTree disk (place ++ [FileName.ofText entry.fileName])) disk
  | _ => return disk

/-- Copy the paths that a command names for its occurrences. -/
def copyOccurrences (disk : Disk) (indexFile : String)
    (paths : List Occurrence → List String) : IO Disk :=
  match loadIndex indexFile disk with
  | .ok occurrences => (paths occurrences).foldlM copyPath disk
  | .error _ => return disk

/-- The paths of the files of a dataset. -/
def datasetPaths (directory : String) : List String :=
  Part.all.flatMap fun part =>
    let path := joinPath directory part.fileName
    [path, Dataset.packedPath path]

/-- Copy everything that an invocation may look at. -/
def copyFor (disk : Disk) (invocation : Invocation) : IO Disk := do
  let disk ← copyPath disk (invocation.config.getD settingsFileName)
  match invocation.command with
  | .detect location output =>
      let disk ← [location, output].foldlM copyPath disk
      match disk.spotOf location with
      | some place => copyTree disk place
      | none => return disk
  | .convert arguments =>
      let disk ←
        (arguments.indexFile :: arguments.corpus.toList ++
          datasetPaths arguments.directory).foldlM copyPath disk
      let settings := (Settings.load invocation.config disk).toOption.getD {}
      let disk ← settings.corpus.toList.foldlM copyPath disk
      let root := do
        let indexFile ← filePath arguments.indexFile disk
        Invocation.corpusRoot settings arguments indexFile disk
      let corpus : Corpus := ⟨root.toOption.getD "."⟩
      copyOccurrences disk arguments.indexFile fun occurrences =>
        occurrences.map fun row => corpus.resolve row.graphPath
  | .excise indexFile location target indexOut =>
      let disk ←
        ([indexFile, location, target, joinPath target "index.json"] ++
          indexOut.toList).foldlM copyPath disk
      let root := (directoryPath location disk).toOption.getD location
      copyOccurrences disk indexFile fun occurrences =>
        occurrences.map (fun row => joinPath root row.graphPath) ++
          (destinations occurrences).map (joinPath target)
  | .dot graphFile output => (graphFile :: output.toList).foldlM copyPath disk
  | .stats indexFile => copyPath disk indexFile

/-- Write back what differs between two states of a disk. -/
def writeBack (before after : Disk) : IO Unit := do
  for (place, entry) in after.entries.toList do
    if before.entries[place]? ≠ some entry then
      match entry with
      | .directory => IO.FS.createDirAll place.toPath
      | .file content =>
          IO.FS.writeBinFile place.toPath ⟨content.toBytes.toArray⟩
  for (place, _) in before.entries.toList do
    if (after.entries[place]?).isNone then IO.FS.removeFile place.toPath

/-- A generator with a random seed. -/
def freshGenerator : IO Generator := do
  let bytes ← IO.getRandomBytes 8
  let seed := ofLittleEndian bytes.data.toList
  return Generator.ofSeed (.ofNat seed)

/-- Carry out an invocation on the real disk. -/
def carryOut (invocation : Invocation) : IO UInt32 := do
  let working := (← IO.currentDir).toString
  let names := ((pathParts working).filter (· ≠ "")).map FileName.ofText
  let before ← copyFor (← copyPath { working := names } working) invocation
  let (outcome, after) :=
    (invocation.execute (← freshGenerator)).run before
  writeBack before after
  match outcome with
  | .ok printed =>
      IO.print printed
      return 0
  | .error fault =>
      IO.eprintln s!"Error: {fault.message}"
      return 1

/-- How the program is called. -/
def usageText : String :=
  "Usage: loggraph [OPTIONS] <detect|convert|excise|dot|stats> [ARGUMENTS]"

end LogCorpus

open LogCorpus in
def main (arguments : List String) : IO UInt32 := do
  match Invocation.parse arguments with
  | .ok invocation => carryOut invocation
  | .error .help =>
      IO.println usageText
      return 0
  | .error .version =>
      IO.println "loggraph 0.4.2"
      return 0
  | .error .error =>
      IO.eprintln usageText
      return 2
