/-
Excision: a statement shrinks to a sentinel.

All nodes of the statement but its root go.  The root stays as a node of kind
`log` without contents that reaches to the statement's end.  Edges inside the
statement go; an edge that entered or left it now enters or leaves the
sentinel.  At last every level access left in the graph is blanked.
-/
import LogCorpus.Statement.LevelAccess
import LogCorpus.Statement.Span

namespace LogCorpus

namespace Edge

/-- Does the edge have both endpoints among these ids? -/
def isInside (ids : List UInt64) (edge : Edge) : Bool :=
  ids.contains edge.source && ids.contains edge.target

/-- Move an endpoint among these ids to the root. -/
def relink (ids : List UInt64) (root : UInt64) (edge : Edge) : Edge :=
  { edge with
    source := if ids.contains edge.source then root else edge.source
    target := if ids.contains edge.target then root else edge.target }

/-- Is the source among these ids and not the root? -/
def movesSource (ids : List UInt64) (root : UInt64) (edge : Edge) : Bool :=
  ids.contains edge.source && edge.source ≠ root

/-- Is the target among these ids and not the root? -/
def movesTarget (ids : List UInt64) (root : UInt64) (edge : Edge) : Bool :=
  ids.contains edge.target && edge.target ≠ root

end Edge

/-- Turn the root of a statement into its sentinel; other nodes stay. -/
def Node.seal (span : Span) (node : Node) : Node :=
  if node.id = span.root then
    { node with
      kind := .log
      contents := ""
      endLine := span.endLine
      endPosition := span.endPosition }
  else node

/-- The outcome of an excision: the span that was removed, what was done, and
the graph that is left. -/
structure Excision where
  span : Span
  droppedEdges : Nat
  relinkedEndpoints : Nat
  sanitizedNodes : Nat
  graph : Graph
deriving Repr, DecidableEq

namespace Graph

/-- The graph with a span shrunk to its sentinel, before level accesses are
blanked. -/
def contract (graph : Graph) (span : Span) : Graph :=
  let ids := (graph.spanNodes span).map Node.id
  { graph with
    nodes :=
      (graph.nodes.take (span.base + 1) ++ graph.nodes.drop span.stop).map
        (Node.seal span)
    edges :=
      (graph.edges.filter fun edge => !edge.isInside ids).map
        (Edge.relink ids span.root) }

/-- Remove the statement with this root. -/
def excise (graph : Graph) (root : UInt64) : Except Fault Excision := do
  let span ← graph.locate root
  let ids := (graph.spanNodes span).map Node.id
  let kept := graph.edges.filter fun edge => !edge.isInside ids
  let contracted := graph.contract span
  return {
    span
    droppedEdges := graph.edgeCount - kept.length
    relinkedEndpoints :=
      kept.countP (Edge.movesSource ids root) +
        kept.countP (Edge.movesTarget ids root)
    sanitizedNodes := contracted.leakCount
    graph := contracted.sanitize }

end Graph

end LogCorpus
