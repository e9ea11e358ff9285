/-
Excision in place.

A statement is cut out of a working graph in steps: edges inside of it go, edges
across its border move to the root, its other nodes go, the root becomes the
sentinel and level accesses are blanked.  Order, arena and edges fit together
again only when the nodes are gone.  The span is located before the first step.
-/
import LogCorpus.Graph.Arena
import LogCorpus.Statement.Excision

namespace LogCorpus

/-- What an excision did, without the graph that it left. -/
structure Surgery where
  span : Span
  droppedEdges : Nat
  relinkedEndpoints : Nat
  sanitizedNodes : Nat
deriving Repr, DecidableEq

/-- The outcome of an excision without the graph. -/
def Excision.surgery (excision : Excision) : Surgery :=
  ⟨excision.span, excision.droppedEdges, excision.relinkedEndpoints,
    excision.sanitizedNodes⟩

/-- Move the endpoints of an edge that are doomed to the root, and count those
that change. -/
def Edge.rescue (doomed : Std.TreeSet UInt64) (root : UInt64) (edge : Edge) :
    StateM Nat Edge := do
  let mut edge := edge
  if doomed.contains edge.source && edge.source ≠ root then
    edge := { edge with source := root }
    modify (· + 1)
  if doomed.contains edge.target && edge.target ≠ root then
    edge := { edge with target := root }
    modify (· + 1)
  return edge

namespace ArenaGraph

/-- The span of the statement with this root. -/
def locate (graph : ArenaGraph) (root : UInt64) : Except Fault Span :=
  match graph.position? root with
  | none => .error (.rootNotFound root)
  | some base =>
      match firstTerminator? (graph.nodes.drop (base + 1)) with
      | none => .error (.terminatorNotFound root)
      | some (offset, last) =>
          .ok {
            root, base
            stop := base + offset + 2
            endLine := last.endLine
            endPosition := last.endPosition }

/-- The ids at the places from `first` up to, not including, `stop`. -/
def idsBetween (graph : ArenaGraph) (first stop : Nat) : List UInt64 :=
  (graph.order.take stop).drop first

/-- Keep the edges that pass a test; the result is the number of those gone. -/
def retainEdges (keep : Edge → Bool) : Editing Nat := do
  let before := (← get).edgeCount
  modify fun graph => { graph with edges := graph.edges.filter keep }
  return before - (← get).edgeCount

/-- Move all doomed endpoints to the root; the result is their number. -/
def relinkEdges (doomed : Std.TreeSet UInt64) (root : UInt64) :
    Editing Nat := do
  let (edges, moved) := ((← get).edges.mapM (Edge.rescue doomed root)).run 0
  modify fun graph => { graph with edges }
  return moved

/-- Drop the nodes at the places from `first` up to, not including, `stop`. -/
def removeRange (first stop : Nat) : Editing Unit := do
  let removed := (← get).idsBetween first stop
  modify fun graph =>
    { graph with order := graph.order.take first ++ graph.order.drop stop }
  modify fun graph =>
    { graph with arena := removed.foldl (fun arena id => arena.erase id) graph.arena }

/-- Turn the root of a span into its sentinel. -/
def sealRoot (span : Span) : Editing Unit := do
  if !(← get).contains span.root then throw (.rootNotFound span.root)
  modify fun graph =>
    { graph with
      arena := graph.arena.modify span.root fun node =>
        { node with
          kind := .log
          contents := ""
          endLine := span.endLine
          endPosition := span.endPosition } }

/-- Blank every level access; the result is their number. -/
def sanitize : Editing Nat := do
  let leaks := (← get).arena.toList.countP fun entry => entry.2.leaks
  modify fun graph =>
    { graph with arena := graph.arena.map fun _ node => node.sanitize }
  return leaks

/-- Remove the statement with this root. -/
def excise (root : UInt64) : Editing Surgery := do
  let span ← Editing.look fun graph => graph.locate root
  let ids := (← get).idsBetween span.base span.stop
  let doomed : Std.TreeSet UInt64 := .ofList ids
  let droppedEdges ← retainEdges fun edge =>
    !(doomed.contains edge.source && doomed.contains edge.target)
  let relinkedEndpoints ← relinkEdges doomed root
  removeRange (span.base + 1) span.stop
  sealRoot span
  let sanitizedNodes ← sanitize
  return { span, droppedEdges, relinkedEndpoints, sanitizedNodes }

end ArenaGraph

end LogCorpus
