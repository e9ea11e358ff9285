/-
Projection: a graph becomes a training example.

Nodes are numbered in node order.  The backbone consists of the nodes at the
ends of next-token edges; the sentinel is the first node of kind `log`.
-/
import LogCorpus.Graph.Basic
import LogCorpus.Occurrence.Basic
import LogCorpus.Text.Tokens
import LogCorpus.Training.Example

namespace LogCorpus

/-- What a learner is to predict: the severity or the statement's tokens. -/
inductive Target where
  | severity (severity : Severity)
  | statement (tokens : List String)
deriving Repr, DecidableEq

/-- The tokens of a target. -/
def Target.tokens : Target → List String
  | severity level => [level.name]
  | statement tokens => tokens

/-- The two kinds of datasets. -/
inductive Mode where
  | severity
  | statement
deriving Repr, DecidableEq

namespace Mode

def name : Mode → String
  | severity => "severity"
  | statement => "statement"

/-- The mode of this exact name. -/
def ofName? (text : String) : Option Mode :=
  [severity, statement].find? fun mode => mode.name = text

/-- The mode of this name, or the fault of a configuration that has none. -/
def parse (text : String) : Except Fault Mode :=
  match ofName? text with
  | some mode => .ok mode
  | none =>
      .error (.invalidConfig
        s!"unknown mode '{text}' (expected severity or statement)")

end Mode

/-- An edge by its kind and the places of its endpoints. -/
structure PlacedEdge where
  kind : EdgeKind
  source : Nat
  target : Nat
deriving Repr, DecidableEq

namespace Graph

/-- The edges with places for ids. -/
def placedEdges (graph : Graph) : Except Fault (List PlacedEdge) :=
  let places := graph.positions
  graph.edges.mapM fun edge =>
    match places[edge.source]?, places[edge.target]? with
    | some source, some target => .ok ⟨edge.kind, source, target⟩
    | _, _ => .error (.danglingEdge edge.source edge.target)

/-- The places of the nodes at the ends of next-token edges. -/
def backbone (graph : Graph) : List Nat :=
  let links := graph.edges.filter fun edge => edge.kind = .nextToken
  let ends : Std.TreeSet UInt64 :=
    .ofList (links.flatMap fun edge => [edge.source, edge.target])
  (graph.ids.zipIdx.filter fun entry => ends.contains entry.1).map Prod.snd

/-- The place of the first sentinel, or `-1`. -/
def logPlace (graph : Graph) : Int :=
  match graph.nodes.findIdx? fun node => node.kind = .log with
  | some place => place
  | none => -1

/-- The training example of a graph. -/
def project (graph : Graph) (target : Target) :
    Except Fault TrainingExample := do
  let placed ← graph.placedEdges
  return {
    nodeLabels := graph.nodes.map Node.contents
    backbone := graph.backbone
    edges := groupByKind placed
    target := target.tokens
    logNode := graph.logPlace }
where
  /-- Edges by kind; kinds without edges are left out. -/
  groupByKind (placed : List PlacedEdge) : List (EdgeKind × List (Nat × Nat)) :=
    EdgeKind.all.filterMap fun kind =>
      match placed.filter fun edge => edge.kind = kind with
      | [] => none
      | group => some (kind, group.map fun edge => (edge.source, edge.target))

end Graph

/-- A projector makes the examples of one kind of dataset. -/
structure Projector where
  mode : Mode
  tokenizer : Tokenizer

namespace Projector

/-- What is to be predicted for an occurrence. -/
def target (projector : Projector) (occurrence : Occurrence) : Target :=
  match projector.mode with
  | .severity => .severity occurrence.severity
  | .statement => .statement (projector.tokenizer occurrence.message)

/-- The training example of an occurrence in its excised graph.  A statement
can be generated only where a sentinel stands. -/
def project (projector : Projector) (graph : Graph) (occurrence : Occurrence) :
    Except Fault TrainingExample := do
  let training ← graph.project (projector.target occurrence)
  if projector.mode = .statement ∧ training.logNode < 0 then
    throw (.invalidOccurrence <|
      s!"{occurrence.graphPath} has no LOG node to generate a statement for")
  return training

end Projector

end LogCorpus
