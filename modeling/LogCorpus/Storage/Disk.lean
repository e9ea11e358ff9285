/-
Disks: directories and files by location.

A location lists the names from the root down.  Locations are kept in order, so
a directory's entries are visited depth first, by name, and everything below a
directory lies together.
-/
import LogCorpus.Storage.Path

namespace LogCorpus

/-- The cause for which a path cannot be used. -/
inductive DiskFault where
  | notFound
  | alreadyExists
  | notDirectory
  | isDirectory
  | nameTooLong
  | nulInName
  | notText
deriving Repr, DecidableEq

/-- The wording of a cause. -/
def DiskFault.message : DiskFault → String
  | notFound => "No such file or directory (os error 2)"
  | alreadyExists => "File exists (os error 17)"
  | notDirectory => "Not a directory (os error 20)"
  | isDirectory => "Is a directory (os error 21)"
  | nameTooLong => "File name too long (os error 36)"
  | nulInName => "file name contained an unexpected NUL byte"
  | notText => "stream did not contain valid UTF-8"

/-- The content of a file: its bytes, or a number of zero bytes that take no
space. -/
inductive Content where
  | bytes (data : List UInt8)
  | zeros (count : Nat)
deriving Repr, DecidableEq

namespace Content

/-- The number of bytes. -/
def size : Content → Nat
  | bytes data => data.length
  | zeros count => count

/-- All bytes. -/
def toBytes : Content → List UInt8
  | bytes data => data
  | zeros count => List.replicate count 0

@[simp] theorem length_toBytes (content : Content) :
    content.toBytes.length = content.size := by
  cases content <;> simp [toBytes, size]

/-- The first bytes, at most so many. -/
def start (count : Nat) : Content → List UInt8
  | bytes data => data.take count
  | zeros size => List.replicate (min count size) 0

theorem start_eq_take (count : Nat) (content : Content) :
    content.start count = content.toBytes.take count := by
  cases content <;> simp [start, toBytes]

/-- Are the bytes the same? -/
def agrees : Content → Content → Bool
  | bytes data, bytes other => data = other
  | bytes data, zeros count | zeros count, bytes data =>
      data.length = count && data.all (· = 0)
  | zeros count, zeros other => count = other

theorem agrees_iff (content other : Content) :
    content.agrees other ↔ content.toBytes = other.toBytes := by
  match content, other with
  | bytes _, bytes _ => simp [agrees, toBytes]
  | bytes _, zeros _ => simp [agrees, toBytes, List.eq_replicate_iff]
  | zeros count, bytes data =>
      rw [eq_comm (a := toBytes _)]
      simp [agrees, toBytes, List.eq_replicate_iff]
  | zeros _, zeros _ => simp [agrees, toBytes]

end Content

/-- What is at a location. -/
inductive Entry where
  | directory
  | file (content : Content)
deriving Repr, DecidableEq

/-- The names from the root of a disk down to a directory or a file. -/
abbrev Location := List FileName

/-- What is shown of the absolute path of a location. -/
def Location.toPath (place : Location) : String :=
  "/" ++ "/".intercalate (place.map FileName.text)

/-- Directories and files, and the directory at which relative paths start. -/
structure Disk where
  entries : Std.TreeMap Location Entry := ∅
  working : Location := []

namespace Disk

/-- What is at a location.  The root is always a directory. -/
def find? (disk : Disk) (place : Location) : Option Entry :=
  if place = [] then some .directory else disk.entries[place]?

/-- The disk with an entry at a location. -/
def put (disk : Disk) (place : Location) (entry : Entry) : Disk :=
  { disk with entries := disk.entries.insert place entry }

theorem find?_put_self (disk : Disk) {place : Location} (entry : Entry)
    (hplace : place ≠ []) :
    (disk.put place entry).find? place = some entry := by
  simp [put, find?, hplace]

theorem find?_put_of_ne (disk : Disk) {place other : Location}
    (entry : Entry) (hother : other ≠ place) :
    (disk.put place entry).find? other = disk.find? other := by
  by_cases hroot : other = []
  · simp [find?, hroot]
  · simp [put, find?, hroot, Std.TreeMap.getElem?_insert, hother.symm]

/-- The longest name, in bytes. -/
def maxNameBytes : Nat :=
  255

/-- The longest path, in bytes. -/
def maxPathBytes : Nat :=
  4095

/-- The location that a part leads to. -/
def follow (place : Location) (part : String) : Except DiskFault Location :=
  if part = "" ∨ part = "." then .ok place
  else if part = ".." then .ok place.dropLast
  else if maxNameBytes < part.utf8ByteSize then .error .nameTooLong
  else .ok (place ++ [FileName.ofText part])

/-- The location that a part leads to from a directory. -/
def step (disk : Disk) (place : Location) (part : String) :
    Except DiskFault Location :=
  match disk.find? place with
  | some .directory => follow place part
  | some (.file _) => .error .notDirectory
  | none => .error .notFound

/-- Where a path starts, and its parts. -/
def start (disk : Disk) (path : String) :
    Except DiskFault (Location × List String) :=
  if path.isEmpty then .error .notFound
  else if path.toList.contains '\x00' then .error .nulInName
  else if maxPathBytes < path.utf8ByteSize then .error .nameTooLong
  else .ok (if isAbsolute path then [] else disk.working, pathParts path)

/-- The location that a path leads to.  All directories on the way exist, what
is to be at the end may be missing. -/
def locate (disk : Disk) (path : String) : Except DiskFault Location := do
  let (place, parts) ← disk.start path
  parts.foldlM disk.step place

/-- The location that a path leads to, and what is there. -/
def lookup (disk : Disk) (path : String) :
    Except DiskFault (Location × Entry) := do
  let place ← disk.locate path
  match disk.find? place with
  | some entry => return (place, entry)
  | none => throw .notFound

/-- Does the path lead to a file? -/
def isFile (disk : Disk) (path : String) : Bool :=
  match disk.lookup path with
  | .ok (_, .file _) => true
  | _ => false

/-- Does the path lead to a directory? -/
def isDirectory (disk : Disk) (path : String) : Bool :=
  match disk.lookup path with
  | .ok (_, .directory) => true
  | _ => false

/-- The absolute path, without detours, of what a path leads to. -/
def canonicalPath (disk : Disk) (path : String) : Except DiskFault String :=
  (disk.lookup path).map fun found => found.1.toPath

/-- The size in bytes of what a path leads to.  Directories count as empty. -/
def size (disk : Disk) (path : String) : Except DiskFault Nat :=
  (disk.lookup path).map fun found =>
    match found.2 with
    | .directory => 0
    | .file content => content.size

/-- The bytes of the file that a path leads to. -/
def read (disk : Disk) (path : String) : Except DiskFault (List UInt8) := do
  match ← disk.lookup path with
  | (_, .file content) => return content.toBytes
  | (_, .directory) => throw .isDirectory

/-- The first bytes of the file that a path leads to, at most so many. -/
def readStart (disk : Disk) (count : Nat) (path : String) :
    Except DiskFault (List UInt8) := do
  match ← disk.lookup path with
  | (_, .file content) => return content.start count
  | (_, .directory) => throw .isDirectory

/-- The text of the file that a path leads to. -/
def readText (disk : Disk) (path : String) : Except DiskFault String := do
  match ofUtf8? (← disk.read path) with
  | some text => return text
  | none => throw .notText

/-- What is at a location and below it, each with the names that lead there, in
order. -/
def entriesBelow (disk : Disk) (place : Location) : List (Location × Entry) :=
  disk.entries.toList.filterMap fun (found, entry) =>
    if place.isPrefixOf found then some (found.drop place.length, entry) else none

/-- The names that lead to the files below a location, or to the one at it. -/
def filesBelow (disk : Disk) (place : Location) : List Location :=
  ((disk.entriesBelow place).filter fun found => found.2 ≠ .directory).map Prod.fst

/-- The names that lead to the directories below a location. -/
def directoriesBelow (disk : Disk) (place : Location) : List Location :=
  ((disk.entriesBelow place).filter fun found =>
    found.2 = .directory ∧ found.1 ≠ []).map Prod.fst

/-- The disk with these bytes as the file that a path leads to. -/
def write (disk : Disk) (path : String) (bytes : List UInt8) :
    Except DiskFault Disk := do
  let place ← disk.locate path
  match disk.find? place with
  | some .directory => throw .isDirectory
  | _ => return disk.put place (.file (.bytes bytes))

/-- The disk without the file that a path leads to. -/
def remove (disk : Disk) (path : String) : Except DiskFault Disk := do
  match ← disk.lookup path with
  | (place, .file _) => return { disk with entries := disk.entries.erase place }
  | (_, .directory) => throw .isDirectory

/-- Do these parts name the place before them by a `.` inside of it? -/
def nameInside (parts : List String) : Bool :=
  parts.contains "." && parts.all fun part => part = "" || part = "."

/-- Follow the parts of a path and make the directories that are missing.  One
that is named by a `.` inside of it at the end of the path is not made.  Those
made before a failure stay. -/
def makeAlong (disk : Disk) (place : Location) :
    List String → Except DiskFault Unit × Disk
  | [] => (.ok (), disk)
  | part :: rest =>
      match follow place part with
      | .error fault => (.error fault, disk)
      | .ok next =>
          match disk.find? next with
          | some .directory => disk.makeAlong next rest
          | some (.file _) =>
              let fault : DiskFault :=
                if rest.isEmpty then .alreadyExists else .notDirectory
              (.error fault, disk)
          | none =>
              if nameInside rest then (.error .notFound, disk)
              else (disk.put next .directory).makeAlong next rest

/-- Make the directory that a path leads to, and those on the way.  The empty
path asks for nothing. -/
def makeDirectories (disk : Disk) (path : String) :
    Except DiskFault Unit × Disk :=
  if path.isEmpty then (.ok (), disk)
  else
    match disk.start path with
    | .error fault => (.error fault, disk)
    | .ok (place, parts) => disk.makeAlong place parts

end Disk

end LogCorpus
