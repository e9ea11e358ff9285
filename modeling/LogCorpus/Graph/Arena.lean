/-
Graphs in working form.

While a graph is edited, its nodes lie in an arena, by id, and the order of the
ids is kept apart.  An edit changes these parts one after the other and may fail
on the way; what it has changed before stays changed.  `toGraph` forgets the
arena and lists the nodes in their order.
-/
import LogCorpus.Graph.Basic
import Std.Data.ExtTreeMap

namespace LogCorpus

/-- A graph in working form: its nodes by id, the ids in text order, and its
edges. -/
structure ArenaGraph where
  sourceFile : String
  arena : Std.ExtTreeMap UInt64 Node
  order : List UInt64
  edges : List Edge
deriving DecidableEq

/-- A computation that edits a graph and may fail. -/
abbrev Editing := ExceptT Fault (StateM ArenaGraph)

/-- Look at the graph without changing it. -/
def Editing.look (query : ArenaGraph → Except Fault α) : Editing α :=
  ExceptT.mk fun graph => (query graph, graph)

namespace ArenaGraph

/-- The graph of a source file before anything is added. -/
def empty (sourceFile : String) : ArenaGraph :=
  ⟨sourceFile, ∅, [], []⟩

/-- Is there a node with this id? -/
def contains (graph : ArenaGraph) (id : UInt64) : Bool :=
  graph.arena.contains id

/-- The node with this id. -/
def node? (graph : ArenaGraph) (id : UInt64) : Option Node :=
  graph.arena[id]?

/-- The node at this place of the order. -/
def nodeAt? (graph : ArenaGraph) (index : Nat) : Option Node :=
  graph.order[index]?.bind graph.node?

/-- The place of an id in the order. -/
def position? (graph : ArenaGraph) (id : UInt64) : Option Nat :=
  graph.order.findIdx? (fun other => other == id)

/-- The nodes in their order.  An id without a node is passed over. -/
def nodes (graph : ArenaGraph) : List Node :=
  graph.order.filterMap graph.node?

def nodeCount (graph : ArenaGraph) : Nat :=
  graph.order.length

def edgeCount (graph : ArenaGraph) : Nat :=
  graph.edges.length

/-- The place of every id.  Where ids repeat, the last place counts. -/
def positions (graph : ArenaGraph) : Std.ExtTreeMap UInt64 Nat :=
  graph.order.zipIdx.foldl (fun places entry => places.insert entry.1 entry.2) ∅

/-- Every id with its place, in ascending order of the ids. -/
def indexMap (graph : ArenaGraph) : List (UInt64 × Nat) :=
  graph.positions.toList

/-- The graph without its arena: the nodes in their order. -/
def toGraph (graph : ArenaGraph) : Graph :=
  ⟨graph.sourceFile, graph.nodes, graph.edges⟩

/-- The ids of a list and those in `seen`, if all of them are new and have
nodes. -/
def checkOrder (graph : ArenaGraph) (seen : Std.TreeSet UInt64) :
    List UInt64 → Except Fault (Std.TreeSet UInt64)
  | [] => .ok seen
  | id :: rest =>
      if seen.contains id then .error (.duplicateNodeId id)
      else if graph.contains id then graph.checkOrder (seen.insert id) rest
      else .error (.serialization s!"order references missing node {id}")

/-- The first edge with an endpoint outside the arena. -/
def danglingEdge? (graph : ArenaGraph) : Option Edge :=
  graph.edges.find? fun edge =>
    !(graph.contains edge.source && graph.contains edge.target)

/-- Do the order, the arena and the edges fit together?  That a node is stored
under its own id is not looked at. -/
def check (graph : ArenaGraph) : Except Fault Unit := do
  let seen ← graph.checkOrder ∅ graph.order
  if seen.size ≠ graph.arena.size then
    throw (.serialization
      (s!"{graph.arena.size - seen.size} nodes are not reachable " ++
        "from the order array"))
  match graph.danglingEdge? with
  | some edge => throw (.danglingEdge edge.source edge.target)
  | none => return ()

/-- Add a node after all others, unless its id is taken. -/
def pushNode (node : Node) : Editing Unit := do
  if (← get).contains node.id then throw (.duplicateNodeId node.id)
  modify fun graph => { graph with order := graph.order ++ [node.id] }
  modify fun graph => { graph with arena := graph.arena.insert node.id node }

/-- Add an edge after all others, unless an endpoint is missing. -/
def pushEdge (edge : Edge) : Editing Unit := do
  let graph ← get
  if !graph.contains edge.source || !graph.contains edge.target then
    throw (.danglingEdge edge.source edge.target)
  modify fun graph => { graph with edges := graph.edges ++ [edge] }

/-- The graph with these nodes and edges, added one by one, if none of them is
refused. -/
def ofParts (sourceFile : String) (nodes : List Node) (edges : List Edge) :
    Except Fault ArenaGraph :=
  let additions : Editing Unit := do
    nodes.forM pushNode
    edges.forM pushEdge
  match additions.run (empty sourceFile) with
  | (.ok (), graph) => .ok graph
  | (.error fault, _) => .error fault

end ArenaGraph

end LogCorpus
