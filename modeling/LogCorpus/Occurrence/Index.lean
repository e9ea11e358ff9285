/-
Occurrence indexes: lists of occurrences as JSON, and their files.

A row is an array of graph path, severity and message, with the root id as a
fourth item where it is known.  An index has nothing else, so the source line of
an occurrence is not kept.  A row has no tag that tells its shape; `IndexRow` reads
it by trying one shape after the other, first a row with a root id, then a row
without one.
-/
import LogCorpus.Json.Reader
import LogCorpus.Json.Writer
import LogCorpus.Occurrence.Basic
import LogCorpus.Storage.OnDisk

namespace LogCorpus

namespace Occurrence

/-- The row of an occurrence. -/
def toRow (occurrence : Occurrence) : Json :=
  .array
    ([.text occurrence.graphPath, .text occurrence.severity.name,
        .text occurrence.message] ++
      occurrence.root.toList.map fun root => .natural root.toNat)

/-- The occurrence in a row. -/
def ofRow? : Json → Option Occurrence
  | .array (path :: severity :: message :: root) => do
      let graphPath ← path.text?
      let severity ← severity.name? >>= Severity.ofName?
      let message ← message.text?
      match root with
      | [] => return { graphPath, severity, message }
      | [id] =>
          let id ← id.naturalBelow? UInt64.size
          return { graphPath, severity, message, root := some (.ofNat id) }
      | _ => none
  | _ => none

end Occurrence

/-- The JSON text of an index. -/
def renderIndex (occurrences : List Occurrence) : String :=
  (Json.array (occurrences.map Occurrence.toRow)).line

/-- The occurrences of an index, given its bytes. -/
def parseIndex (bytes : List UInt8) : Except Fault (List Occurrence) :=
  match ofUtf8? bytes >>= Json.parse? >>= Json.list? Occurrence.ofRow? with
  | some occurrences => .ok occurrences
  | none => .error (.serialization "Invalid occurrence index")

/-! ### Rows by their shape -/

/-- A row of an index, with the id of a root or without. -/
inductive IndexRow where
  | rooted (graphPath : String) (severity : Severity) (message : String) (root : UInt64)
  | bare (graphPath : String) (severity : Severity) (message : String)
deriving Repr, DecidableEq

namespace IndexRow

/-- The occurrence that a row keeps. -/
def occurrence : IndexRow → Occurrence
  | rooted graphPath severity message root =>
      { graphPath, severity, message, root := some root }
  | bare graphPath severity message => { graphPath, severity, message }

/-- A row of the longer shape. -/
def rooted? : Json → Option IndexRow
  | .array [path, severity, message, root] => do
      let graphPath ← path.text?
      let severity ← severity.name? >>= Severity.ofName?
      let message ← message.text?
      let root ← root.naturalBelow? UInt64.size
      return .rooted graphPath severity message (.ofNat root)
  | _ => none

/-- A row of the shorter shape. -/
def bare? : Json → Option IndexRow
  | .array [path, severity, message] => do
      let graphPath ← path.text?
      let severity ← severity.name? >>= Severity.ofName?
      let message ← message.text?
      return .bare graphPath severity message
  | _ => none

/-- A row of either shape, the longer one tried first. -/
def ofJson? (json : Json) : Option IndexRow :=
  (rooted? json).or (bare? json)

end IndexRow

/-! ### Index files -/

/-- The occurrences of an index file.  No index starts with a zero byte, so a
file that does is refused before the rest is read. -/
def readIndex (path : String) (disk : Disk) :
    Except Fault (List Occurrence) := do
  let fault := DiskFault.toFault s!"Cannot read index '{path}'"
  let start ← (disk.readStart 1 path).mapError fault
  if start = [0] then parseIndex start
  else parseIndex (← (disk.read path).mapError fault)

/-- Write occurrences to an index file. -/
def writeIndex (path : String) (occurrences : List Occurrence) : OnDisk Unit :=
  OnDisk.change s!"Cannot write index '{path}'"
    (·.write path (utf8 (renderIndex occurrences)))

end LogCorpus
