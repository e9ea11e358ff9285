/-
Graphs in the DOT language.

Every node and every edge has a line with a label; nodes of kind `log` get a
line of their own at the end that draws them as framed squares.  Escaping keeps
a label on its line and inside its quotes.
-/
import LogCorpus.Graph.Basic

namespace LogCorpus

/-- A character as it stands in a label. -/
def escapeLabelChar (c : Char) : List Char :=
  if c = '"' then ['\\', '"']
  else if c = '\\' then ['\\', '\\']
  else if c = '\n' then ['\\', 'n']
  else [c]

/-- A text between the quotes of a label. -/
def escapeLabel (text : String) : String :=
  String.ofList (text.toList.flatMap escapeLabelChar)

def Node.dotLine (node : Node) : String :=
  s!"{node.id} [ label=\"{escapeLabel node.contents}\" ];\n"

def Edge.dotLine (edge : Edge) : String :=
  s!"{edge.source} -> {edge.target} [ label=\"{edge.kind.name}\" ];\n"

/-- The line that frames a sentinel. -/
def Node.frameLine (node : Node) : String :=
  s!"{node.id} [shape=Msquare];\n"

/-- The lines of a graph in the DOT language, each with its end. -/
def Graph.dotLines (graph : Graph) : List String :=
  "digraph G \x7b\n" :: graph.nodes.map Node.dotLine ++
    graph.edges.map Edge.dotLine ++
    (graph.nodes.filter fun node => node.kind = .log).map Node.frameLine ++
    ["\x7d\n"]

/-- A graph in the DOT language. -/
def Graph.toDot (graph : Graph) : String :=
  String.join graph.dotLines

end LogCorpus
