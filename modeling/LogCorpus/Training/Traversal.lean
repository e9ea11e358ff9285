/-
Projection of a working graph, node by node and edge by edge.

One pass over the nodes collects labels, the backbone and the sentinel; it counts the
nodes that are listed.  One pass over the edges collects pairs of places by kind; these
places come from the order of the ids.
-/
import LogCorpus.Graph.Arena
import LogCorpus.Training.Projection

namespace LogCorpus

/-- What the nodes so far have shown. -/
structure NodeScan where
  labels : Array String := #[]
  backbone : Array Nat := #[]
  logNode : Int := -1
deriving Repr, DecidableEq

/-- Go on with the node at a place.  Only the first sentinel is noted. -/
def NodeScan.step (linked : Std.TreeSet UInt64) (scan : NodeScan) (entry : Node × Nat) :
    NodeScan :=
  let (node, place) := entry
  { labels := scan.labels.push node.contents
    backbone :=
      if linked.contains node.id then scan.backbone.push place else scan.backbone
    logNode :=
      if node.kind = .log ∧ scan.logNode < 0 then place else scan.logNode }

/-- Pairs of places by the kind of their edges. -/
abbrev EdgeGroups := Std.TreeMap EdgeKind (Array (Nat × Nat))

namespace EdgeGroups

/-- Add an edge to the group of its kind. -/
def push (groups : EdgeGroups) (edge : PlacedEdge) : EdgeGroups :=
  groups.alter edge.kind fun group =>
    some ((group.getD #[]).push (edge.source, edge.target))

/-- Go on with an edge, unless an endpoint has no place. -/
def step (places : Std.ExtTreeMap UInt64 Nat) (groups : EdgeGroups) (edge : Edge) :
    Except Fault EdgeGroups :=
  match places[edge.source]?, places[edge.target]? with
  | some source, some target => .ok (groups.push ⟨edge.kind, source, target⟩)
  | _, _ => .error (.danglingEdge edge.source edge.target)

end EdgeGroups

namespace ArenaGraph

/-- The ids at the ends of next-token edges. -/
def linked (graph : ArenaGraph) : Std.TreeSet UInt64 :=
  let links := graph.edges.filter fun edge => edge.kind = .nextToken
  .ofList (links.flatMap fun edge => [edge.source, edge.target])

/-- The training example of a working graph. -/
def project (graph : ArenaGraph) (target : Target) : Except Fault TrainingExample := do
  let scan := graph.nodes.zipIdx.foldl (NodeScan.step graph.linked) {}
  let groups ← graph.edges.foldlM (EdgeGroups.step graph.positions) ∅
  return {
    nodeLabels := scan.labels.toList
    backbone := scan.backbone.toList
    edges := groups.toList.map fun group => (group.1, group.2.toList)
    target := target.tokens
    logNode := scan.logNode }

end ArenaGraph

end LogCorpus
