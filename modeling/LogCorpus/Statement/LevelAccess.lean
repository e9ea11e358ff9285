/-
Level accesses: dotted names that give a severity away.

A text such as `Level.WARNING` or `org.example.log.debug` would tell a learner
the severity that it is to predict.  `isLevelAccess` recognises these texts and
`sanitize` blanks the contents of the nodes that hold them.
-/
import LogCorpus.Graph.Basic
import LogCorpus.Text.Characters
import LogCorpus.Text.Segments

namespace LogCorpus

/-- The lower-case words that name a severity in a dotted name. -/
def levelWords : List String :=
  ["trace", "debug", "info", "warn", "warning", "error", "fatal", "severe"]

/-- A segment names a level if it is one of the level words, written all in
lower or all in upper case. -/
def isLevelSegment (segment : List Char) : Bool :=
  let lower := segment.map Char.toLower
  (segment = lower || segment = segment.map Char.toUpper) &&
    levelWords.contains (String.ofList lower)

/-- A level access has a dot, no blank, and a segment that names a level. -/
def isLevelAccess (contents : String) : Bool :=
  let text := contents.toList
  text.contains '.' && !text.any isBlank &&
    (segments '.' text).any isLevelSegment

/-- Does the node hold a level access? -/
def Node.leaks (node : Node) : Bool :=
  isLevelAccess node.contents

/-- The node without its contents if these are a level access. -/
def Node.sanitize (node : Node) : Node :=
  if node.leaks then { node with contents := "" } else node

namespace Graph

/-- The number of nodes that hold a level access. -/
def leakCount (graph : Graph) : Nat :=
  graph.nodes.countP Node.leaks

/-- Blank every level access. -/
def sanitize (graph : Graph) : Graph :=
  { graph with nodes := graph.nodes.map Node.sanitize }

end Graph

example : isLevelAccess "java.util.logging.Level.WARNING" = true := by
  decide +kernel

example : isLevelAccess "java.lang.Error" = false := by decide +kernel

end LogCorpus
