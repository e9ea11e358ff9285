/-
Payloads: the binary form of a graph.

A text is its length in bytes and its UTF-8 bytes; a sequence is its length and
its items; a kind is its ordinal.  A graph is its source file, its nodes and its
edges.  `readGraph` takes one graph off the front of a byte sequence; whether
the graph is well formed is looked at only when all of it has been read.
-/
import LogCorpus.Graph.Basic
import LogCorpus.Record.Varint
import LogCorpus.Text.Bytes

namespace LogCorpus

/-- The written form of an unsigned 32-bit integer. -/
def writeWord32 (word : UInt32) : List UInt8 :=
  writeVarint .word32 word.toNat

/-- The written form of an unsigned 64-bit integer. -/
def writeWord64 (word : UInt64) : List UInt8 :=
  writeVarint .word64 word.toNat

def readWord32 : Decoder UInt32 :=
  UInt32.ofNat <$> readVarint .word32

def readWord64 : Decoder UInt64 :=
  UInt64.ofNat <$> readVarint .word64

/-- The written form of a text: its length in bytes, then the bytes. -/
def writeText (text : String) : List UInt8 :=
  writeVarint .word64 (utf8 text).length ++ utf8 text

def readText : Decoder String := do
  let length ← readVarint .word64
  let bytes ← Decoder.take length
  match ofUtf8? bytes with
  | some text => return text
  | none => throw .invalidUtf8

/-- The written form of a sequence: its length, then its items. -/
def writeSequence (item : α → List UInt8) (items : List α) : List UInt8 :=
  writeVarint .word64 items.length ++ items.flatMap item

def readSequence (item : Decoder α) : Decoder (List α) := do
  let length ← readVarint .word64
  Decoder.times length item

/-- Read an ordinal and look it up among the kinds. -/
def readOrdinal (kinds : List α) : Decoder α := do
  let ordinal ← readVarint .word32
  match kinds[ordinal]? with
  | some kind => return kind
  | none => throw .unknownOrdinal

def writeNode (node : Node) : List UInt8 :=
  writeWord64 node.id ++ writeVarint .word32 node.kind.ordinal ++
    writeText node.contents ++ writeWord32 node.startLine ++
    writeWord32 node.endLine ++ writeWord32 node.startPosition ++
    writeWord32 node.endPosition

def readNode : Decoder Node := do
  let id ← readWord64
  let kind ← readOrdinal NodeKind.all
  let contents ← readText
  let startLine ← readWord32
  let endLine ← readWord32
  let startPosition ← readWord32
  let endPosition ← readWord32
  return { id, kind, contents, startLine, endLine, startPosition, endPosition }

def writeEdge (edge : Edge) : List UInt8 :=
  writeWord64 edge.source ++ writeWord64 edge.target ++
    writeVarint .word32 edge.kind.ordinal

def readEdge : Decoder Edge := do
  let source ← readWord64
  let target ← readWord64
  let kind ← readOrdinal EdgeKind.all
  return { source, target, kind }

def writeGraph (graph : Graph) : List UInt8 :=
  writeText graph.sourceFile ++ writeSequence writeNode graph.nodes ++
    writeSequence writeEdge graph.edges

/-- Read the parts of a graph, well formed or not. -/
def readGraph : Decoder Graph := do
  let sourceFile ← readText
  let nodes ← readSequence readNode
  let edges ← readSequence readEdge
  return { sourceFile, nodes, edges }

end LogCorpus
