/-
Graph records: the stored form of a graph.

A record is the magic bytes `LGRF`, a version byte and a payload.  `ofRecord`
accepts records of the current version whose payload decodes to a well-formed
graph; bytes after the payload are ignored.
-/
import LogCorpus.Graph.Arena
import LogCorpus.Record.Payload

namespace LogCorpus

/-- The first bytes of every record: `LGRF`. -/
def magicBytes : List UInt8 :=
  [0x4C, 0x47, 0x52, 0x46]

/-- The version that is written and the only one that is read. -/
def currentVersion : UInt8 :=
  1

/-- The length of magic bytes and version together. -/
def headerLength : Nat :=
  5

/-- The largest record that is read, in bytes: 256 MiB. -/
def maxRecordBytes : Nat :=
  256 * 1024 * 1024

/-- The cause for which bytes are no readable record. -/
inductive RecordFault where
  | tooLarge (length : Nat)
  | tooShort (length : Nat)
  | badMagic
  | otherVersion (version : UInt8)
  | badPayload (cause : DecodeFault)
deriving Repr, DecidableEq

/-- The wording of a cause. -/
def RecordFault.message : RecordFault → String
  | tooLarge length =>
      s!"Record size {length} bytes exceeds maximum allowed " ++
        s!"{maxRecordBytes} bytes"
  | tooShort length =>
      s!"Record too short: {length} bytes, header needs {headerLength}"
  | badMagic => "Not a graph record: bad magic"
  | otherVersion version =>
      s!"Unsupported version: {version} (expected {currentVersion})"
  | badPayload cause => s!"Failed to decode graph payload: {cause.message}"

/-- A record fault as a fault of the library. -/
def RecordFault.toFault (cause : RecordFault) : Fault :=
  .serialization cause.message

/-- The version and the payload of a record. -/
def splitHeader (record : List UInt8) :
    Except RecordFault (UInt8 × List UInt8) :=
  match record with
  | a :: b :: c :: d :: version :: payload =>
      if [a, b, c, d] = magicBytes then .ok (version, payload)
      else .error .badMagic
  | short => .error (.tooShort short.length)

/-- The fault of a header shows in the first bytes of a record. -/
theorem splitHeader_take_eq_error_iff (record : List UInt8)
    (cause : RecordFault) :
    splitHeader (record.take headerLength) = .error cause ↔
      splitHeader record = .error cause := by
  match record with
  | [] | [_] | [_, _] | [_, _, _] | [_, _, _, _] => rfl
  | a :: b :: c :: d :: version :: payload =>
      by_cases hmagic : [a, b, c, d] = magicBytes <;>
        simp [splitHeader, headerLength, hmagic]

/-- Only the current version is read. -/
def ensureCurrent (version : UInt8) : Except RecordFault Unit :=
  if version = currentVersion then .ok () else .error (.otherVersion version)

/-- The parts of the graph in a record, well formed or not. -/
def readRecord (record : List UInt8) : Except RecordFault Graph := do
  if maxRecordBytes < record.length then throw (.tooLarge record.length)
  let (version, payload) ← splitHeader record
  ensureCurrent version
  match readGraph.run payload with
  | .ok (graph, _) => return graph
  | .error cause => throw (.badPayload cause)

namespace Graph

/-- The record of a graph. -/
def toRecord (graph : Graph) : List UInt8 :=
  magicBytes ++ currentVersion :: writeGraph graph

/-- The well-formed graph in a record. -/
def ofRecord (record : List UInt8) : Except Fault Graph := do
  let graph ← (readRecord record).mapError RecordFault.toFault
  graph.check
  return graph

end Graph

namespace ArenaGraph

/-- The record of a graph. -/
def toRecord (graph : ArenaGraph) : List UInt8 :=
  graph.toGraph.toRecord

/-- The graph in a record, rebuilt from its nodes and edges. -/
def ofRecord (record : List UInt8) : Except Fault ArenaGraph := do
  let parts ← (readRecord record).mapError RecordFault.toFault
  ofParts parts.sourceFile parts.nodes parts.edges

end ArenaGraph

end LogCorpus
