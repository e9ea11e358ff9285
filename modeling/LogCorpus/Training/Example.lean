/-
Training examples: what a learner gets to see of one excised graph.

An example refers to nodes by their place in the list of labels.  Its edges are
grouped by kind, in the order of the kinds.  It is written as a JSON object on one
line.  When one is read, the target may also be called `method_name`, and of
repeated edge kinds the last counts.
-/
import LogCorpus.Graph.Kind
import LogCorpus.Json.Reader
import LogCorpus.Json.Writer

namespace LogCorpus

/-- One training example. -/
structure TrainingExample where
  /-- The contents of the nodes, in node order. -/
  nodeLabels : List String
  /-- The places of the nodes on the token backbone, ascending. -/
  backbone : List Nat
  /-- For each kind that occurs, its edges as pairs of places. -/
  edges : List (EdgeKind × List (Nat × Nat))
  /-- The tokens to predict. -/
  target : List String
  /-- The place of the sentinel, or `-1`. -/
  logNode : Int
deriving Repr, DecidableEq

namespace TrainingExample

/-- Every place that the backbone and the edges mention. -/
def places (training : TrainingExample) : List Nat :=
  training.backbone ++
    training.edges.flatMap fun group =>
      group.2.flatMap fun pair => [pair.1, pair.2]

/-- The largest place that the backbone and the edges mention. -/
def maxPlace? (training : TrainingExample) : Option Nat :=
  training.places.max?

end TrainingExample

/-! ### Examples as JSON -/

namespace TrainingExample

/-- The fields of an example, each with its names. -/
def fieldNames : List (List String) :=
  [["node_labels"], ["backbone_sequence"], ["edges"],
    ["target", "method_name"], ["log_node"]]

/-- The JSON value of an example. -/
def toJson (training : TrainingExample) : Json :=
  let pairJson (pair : Nat × Nat) : Json :=
    .array [.natural pair.1, .natural pair.2]
  .ofMembers [
    ("node_labels", .array (training.nodeLabels.map .text)),
    ("backbone_sequence", .array (training.backbone.map .natural)),
    ("edges", .ofMembers (training.edges.map fun group =>
      (group.1.name, .array (group.2.map pairJson)))),
    ("target", .array (training.target.map .text)),
    ("log_node", .integer training.logNode)]

/-- The line of an example in a dataset file, without the line's end. -/
def line (training : TrainingExample) : String :=
  training.toJson.line

/-- A place: a natural number of at most 64 bits. -/
def place? : Json → Option Nat :=
  Json.naturalBelow? UInt64.size

/-- A pair of places. -/
def pair? : Json → Option (Nat × Nat)
  | .array [source, target] => do
      return (← place? source, ← place? target)
  | _ => none

/-- A kind with its pairs. -/
def group? (member : Option String × Json) :
    Option (EdgeKind × List (Nat × Nat)) := do
  let kind ← member.1 >>= EdgeKind.ofName?
  let pairs ← member.2.list? pair?
  return (kind, pairs)

/-- Edges by kind, in the order of the kinds. -/
def edges? : Json → Option (List (EdgeKind × List (Nat × Nat)))
  | .object members => do
      let groups ← members.mapM group?
      return EdgeKind.all.filterMap fun kind =>
        (groups.reverse.lookup kind).map fun pairs => (kind, pairs)
  | _ => none

/-- A signed number of 64 bits. -/
def signed? : Json → Option Int
  | .integer value =>
      if Int64.minValue.toInt ≤ value ∧ value ≤ Int64.maxValue.toInt then
        some value
      else none
  | _ => none

/-- The example that a JSON value stands for. -/
def ofJson? (json : Json) : Option TrainingExample := do
  let [labels, backbone, edges, target, logNode] ← json.fields? fieldNames | none
  return {
    nodeLabels := ← labels.list? Json.text?
    backbone := ← backbone.list? place?
    edges := ← edges? edges
    target := ← target.list? Json.text?
    logNode := ← signed? logNode }

/-- The example that a text denotes. -/
def parse? (text : String) : Option TrainingExample :=
  Json.parse? text >>= ofJson?

end TrainingExample

end LogCorpus
