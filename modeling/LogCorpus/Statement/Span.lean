/-
Statement spans.

A statement starts at its root node and ends at the first terminator after the
root; the root itself is never its own terminator.
-/
import LogCorpus.Graph.Basic

namespace LogCorpus

/-- The contents of the nodes that end a statement. -/
def terminators : List String :=
  ["SEMI", ";"]

/-- Do these contents end a statement? -/
def isTerminator (contents : String) : Bool :=
  terminators.contains contents

/-- Does the node end a statement? -/
def Node.endsStatement (node : Node) : Bool :=
  isTerminator node.contents

/-- The nodes of one statement: the places from `base` up to, not including,
`stop`.  The end coordinates are those of the last node. -/
structure Span where
  root : UInt64
  base : Nat
  stop : Nat
  endLine : UInt32
  endPosition : UInt32
deriving Repr, DecidableEq

namespace Span

def length (span : Span) : Nat :=
  span.stop - span.base

def isEmpty (span : Span) : Bool :=
  span.stop ≤ span.base

end Span

/-- The first node that ends a statement, with its place. -/
def firstTerminator? : List Node → Option (Nat × Node)
  | [] => none
  | node :: rest =>
      if node.endsStatement then some (0, node)
      else (firstTerminator? rest).map fun (place, last) => (place + 1, last)

namespace Graph

/-- The span of the statement with this root. -/
def locate (graph : Graph) (root : UInt64) : Except Fault Span :=
  match graph.position? root with
  | none => .error (.rootNotFound root)
  | some base =>
      match firstTerminator? (graph.nodes.drop (base + 1)) with
      | none => .error (.terminatorNotFound root)
      | some (offset, last) =>
          .ok {
            root, base
            stop := base + offset + 2
            endLine := last.endLine
            endPosition := last.endPosition }

/-- The nodes of a span. -/
def spanNodes (graph : Graph) (span : Span) : List Node :=
  (graph.nodes.take span.stop).drop span.base

end Graph

end LogCorpus
