/-
Graphs of source files.

A graph keeps its nodes in the order of the source text and its edges in the
order in which they were added.  A well-formed graph has distinct node ids and
no edge with an endpoint outside them.  `pushNode`, `pushEdge` and `ofParts`
refuse whatever would break this.
-/
import LogCorpus.Distinct
import LogCorpus.Fault
import LogCorpus.Graph.Kind
import Std.Data.TreeMap

namespace LogCorpus

/-- A token or syntax element with its range in the source text. -/
structure Node where
  id : UInt64
  kind : NodeKind
  contents : String
  startLine : UInt32
  endLine : UInt32
  startPosition : UInt32
  endPosition : UInt32
deriving Repr, DecidableEq

/-- A directed edge between two nodes, given by their ids. -/
structure Edge where
  source : UInt64
  target : UInt64
  kind : EdgeKind
deriving Repr, DecidableEq

/-- The graph of one source file: nodes in text order and edges. -/
structure Graph where
  sourceFile : String
  nodes : List Node
  edges : List Edge
deriving Repr, DecidableEq

namespace Graph

/-- The graph of a source file before anything is added. -/
def empty (sourceFile : String) : Graph :=
  ⟨sourceFile, [], []⟩

/-- The node ids in node order. -/
def ids (graph : Graph) : List UInt64 :=
  graph.nodes.map Node.id

/-- Is there a node with this id? -/
def contains (graph : Graph) (id : UInt64) : Bool :=
  graph.ids.contains id

/-- The node with this id. -/
def node? (graph : Graph) (id : UInt64) : Option Node :=
  graph.nodes.find? (fun node => node.id == id)

/-- The node at this place in node order. -/
def nodeAt? (graph : Graph) (index : Nat) : Option Node :=
  graph.nodes[index]?

/-- The place of a node in node order. -/
def position? (graph : Graph) (id : UInt64) : Option Nat :=
  graph.nodes.findIdx? (fun node => node.id == id)

def nodeCount (graph : Graph) : Nat :=
  graph.nodes.length

def edgeCount (graph : Graph) : Nat :=
  graph.edges.length

/-- Distinct node ids, and every edge between two of them. -/
structure WellFormed (graph : Graph) : Prop where
  nodup_ids : graph.ids.Nodup
  source_mem : ∀ edge ∈ graph.edges, edge.source ∈ graph.ids
  target_mem : ∀ edge ∈ graph.edges, edge.target ∈ graph.ids

/-- Add a node after all others, unless its id is taken. -/
def pushNode (graph : Graph) (node : Node) : Except Fault Graph :=
  if graph.contains node.id then .error (.duplicateNodeId node.id)
  else .ok { graph with nodes := graph.nodes ++ [node] }

/-- Add an edge after all others, unless an endpoint is missing. -/
def pushEdge (graph : Graph) (edge : Edge) : Except Fault Graph :=
  if graph.contains edge.source && graph.contains edge.target then
    .ok { graph with edges := graph.edges ++ [edge] }
  else .error (.danglingEdge edge.source edge.target)

/-- The set of node ids, for many membership tests. -/
def idSet (graph : Graph) : Std.TreeSet UInt64 :=
  .ofList graph.ids

/-- The place of every node id.  Where ids repeat, the first place counts. -/
def positions (graph : Graph) : Std.TreeMap UInt64 Nat :=
  graph.ids.zipIdx.foldl (fun places entry => places.insertIfNew entry.1 entry.2) ∅

/-- Every node id with its place, in ascending order of the ids. -/
def indexMap (graph : Graph) : List (UInt64 × Nat) :=
  graph.positions.toList

/-- The first edge with an endpoint outside the node ids. -/
def danglingEdge? (graph : Graph) : Option Edge :=
  let known := graph.idSet
  graph.edges.find? fun edge =>
    !(known.contains edge.source && known.contains edge.target)

/-- Is the graph well formed?  Ids are looked at before edges, and the first
offender is named. -/
def check (graph : Graph) : Except Fault Unit :=
  match firstRepeat? Node.id graph.nodes with
  | some node => .error (.duplicateNodeId node.id)
  | none =>
      match graph.danglingEdge? with
      | some edge => .error (.danglingEdge edge.source edge.target)
      | none => .ok ()

/-- The graph with these nodes and edges, if they make a well-formed one. -/
def ofParts (sourceFile : String) (nodes : List Node) (edges : List Edge) :
    Except Fault Graph :=
  let graph : Graph := ⟨sourceFile, nodes, edges⟩
  graph.check.map fun _ => graph

end Graph

end LogCorpus
