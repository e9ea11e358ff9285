/-
Graphs as JSON: an object of the source file, the nodes and the edges.
-/
import LogCorpus.Graph.Basic
import LogCorpus.Json.Reader
import LogCorpus.Json.Writer

namespace LogCorpus

/-- A JSON number of 64 bits. -/
def word64? (json : Json) : Option UInt64 :=
  (json.naturalBelow? UInt64.size).map .ofNat

/-- A JSON number of 32 bits. -/
def word32? (json : Json) : Option UInt32 :=
  (json.naturalBelow? UInt32.size).map .ofNat

namespace Node

def toJson (node : Node) : Json :=
  .ofMembers [
    ("id", .natural node.id.toNat),
    ("kind", .text node.kind.name),
    ("contents", .text node.contents),
    ("start_line", .natural node.startLine.toNat),
    ("end_line", .natural node.endLine.toNat),
    ("start_position", .natural node.startPosition.toNat),
    ("end_position", .natural node.endPosition.toNat)]

def ofJson? (json : Json) : Option Node := do
  let [id, kind, contents, startLine, endLine, startPosition, endPosition] ←
    json.fields? [["id"], ["kind"], ["contents"], ["start_line"], ["end_line"],
      ["start_position"], ["end_position"]] | none
  return {
    id := ← word64? id
    kind := ← kind.name? >>= NodeKind.ofName?
    contents := ← contents.text?
    startLine := ← word32? startLine
    endLine := ← word32? endLine
    startPosition := ← word32? startPosition
    endPosition := ← word32? endPosition }

end Node

namespace Edge

def toJson (edge : Edge) : Json :=
  .ofMembers [
    ("from", .natural edge.source.toNat),
    ("to", .natural edge.target.toNat),
    ("kind", .text edge.kind.name)]

def ofJson? (json : Json) : Option Edge := do
  let [source, target, kind] ← json.fields? [["from"], ["to"], ["kind"]] | none
  return {
    source := ← word64? source
    target := ← word64? target
    kind := ← kind.name? >>= EdgeKind.ofName? }

end Edge

namespace Graph

def toJson (graph : Graph) : Json :=
  .ofMembers [
    ("source_file", .text graph.sourceFile),
    ("nodes", .array (graph.nodes.map Node.toJson)),
    ("edges", .array (graph.edges.map Edge.toJson))]

/-- The parts of the graph that a JSON value stands for, well formed or not. -/
def ofJson? (json : Json) : Option Graph := do
  let [sourceFile, nodes, edges] ←
    json.fields? [["source_file"], ["nodes"], ["edges"]] | none
  return {
    sourceFile := ← sourceFile.text?
    nodes := ← nodes.list? Node.ofJson?
    edges := ← edges.list? Edge.ofJson? }

end Graph

end LogCorpus
