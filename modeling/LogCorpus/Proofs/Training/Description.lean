/-
What an example says about a graph.

An example speaks of nodes by place and a graph by id.  Three computations find places:
the table of the order, the count of the listed nodes and the set of linked ids.  In a
consistent working graph they agree, so everything in the example can be read through the
node at each place.
-/
import LogCorpus.Proofs.Graph.Building
import LogCorpus.Proofs.Training.Backbone
import LogCorpus.Proofs.Training.RoundTrip
import LogCorpus.Proofs.Training.Traversal

namespace LogCorpus

/-- The id of the node at a place. -/
def ArenaGraph.idAt? (graph : ArenaGraph) (place : Nat) : Option UInt64 :=
  (graph.nodeAt? place).map Node.id

namespace TrainingExample

/-- The example describes the graph: the nodes by their contents, the backbone and the
sentinel by the places of their nodes, and the edges of each kind by the places of their
ends. -/
structure Describes (training : TrainingExample) (graph : ArenaGraph) : Prop where
  nodeLabels_eq : training.nodeLabels = graph.nodes.map Node.contents
  nodeLabel_eq : ∀ place,
    training.nodeLabels[place]? = (graph.nodeAt? place).map Node.contents
  pairwise_backbone : training.backbone.Pairwise (· < ·)
  mem_backbone_iff : ∀ place, place ∈ training.backbone ↔
    ∃ edge ∈ graph.edges, edge.kind = .nextToken ∧
      (graph.idAt? place = some edge.source ∨ graph.idAt? place = some edge.target)
  byKind_edges : ByKind training.edges
  ends_eq : ∀ kind,
    ((training.edges.lookup kind).getD []).map (fun pair =>
        (graph.idAt? pair.1, graph.idAt? pair.2)) =
      (graph.edges.filter fun edge => edge.kind = kind).map fun edge =>
        (some edge.source, some edge.target)
  lookup_eq_none_iff : ∀ kind,
    training.edges.lookup kind = none ↔ ∀ edge ∈ graph.edges, edge.kind ≠ kind
  logNode_eq : (training.logNode = -1 ∧ ∀ node ∈ graph.nodes, node.kind ≠ .log) ∨
    ∃ (place : Nat) (node : Node), training.logNode = place ∧
      graph.nodeAt? place = some node ∧ node.kind = .log ∧
      ∀ earlier < place, ∀ other, graph.nodeAt? earlier = some other → other.kind ≠ .log

variable {training : TrainingExample} {graph : ArenaGraph}

namespace Describes

/-- Every place at which there is a node has a label. -/
theorem lt_of_idAt?_eq_some (hdescribes : training.Describes graph) {place : Nat}
    {id : UInt64} (hid : graph.idAt? place = some id) :
    place < training.nodeLabels.length := by
  obtain ⟨node, hnode, _⟩ := Option.map_eq_some_iff.mp hid
  have hlabel := hdescribes.nodeLabel_eq place
  rw [hnode] at hlabel
  exact (List.getElem?_eq_some_iff.mp hlabel).1

/-- Every place that the example mentions has a label. -/
theorem places_lt (hdescribes : training.Describes graph) :
    ∀ place ∈ training.places, place < training.nodeLabels.length := by
  intro place hplace
  rcases mem_places.mp hplace with
    hbackbone | ⟨⟨kind, pairs⟩, hgroup, pair, hpair, hsame⟩
  · obtain ⟨edge, _, _, hid | hid⟩ := (hdescribes.mem_backbone_iff place).mp hbackbone
    · exact hdescribes.lt_of_idAt?_eq_some hid
    · exact hdescribes.lt_of_idAt?_eq_some hid
  · have hends := hdescribes.ends_eq kind
    rw [hdescribes.byKind_edges.lookup_eq_some_iff.mpr hgroup, Option.getD_some] at hends
    have hmem := List.mem_map_of_mem
      (f := fun pair : Nat × Nat => (graph.idAt? pair.1, graph.idAt? pair.2)) hpair
    rw [hends] at hmem
    obtain ⟨edge, _, hids⟩ := List.mem_map.mp hmem
    injection hids with hsource htarget
    rcases hsame with rfl | rfl
    · exact hdescribes.lt_of_idAt?_eq_some hsource.symm
    · exact hdescribes.lt_of_idAt?_eq_some htarget.symm

theorem logNode_range (hdescribes : training.Describes graph) :
    -1 ≤ training.logNode ∧ training.logNode < training.nodeLabels.length := by
  rcases hdescribes.logNode_eq with ⟨hnone, _⟩ | ⟨place, node, hplace, hnode, _⟩
  · rw [hnone]
    omega
  · have hid : graph.idAt? place = some node.id := by rw [ArenaGraph.idAt?, hnode]; rfl
    have hlt := hdescribes.lt_of_idAt?_eq_some hid
    omega

end Describes

end TrainingExample

namespace ArenaGraph

section

variable {graph : ArenaGraph} (hgraph : graph.Consistent)
include hgraph

theorem Consistent.idAt?_eq_some_iff {place : Nat} {id : UInt64} :
    graph.idAt? place = some id ↔ graph.position? id = some place := by
  rw [idAt?, Option.map_eq_some_iff, hgraph.exists_nodeAt?_iff]

/-- The places of an edge's ends lead back to its ends. -/
theorem Consistent.idAt?_placeEdge {edge : Edge} (hedge : edge ∈ graph.edges) :
    graph.idAt? (graph.toGraph.placeEdge edge).source = some edge.source ∧
      graph.idAt? (graph.toGraph.placeEdge edge).target = some edge.target := by
  have hback {id : UInt64} (hid : id ∈ graph.toGraph.ids) :
      graph.idAt? ((graph.toGraph.position? id).getD 0) = some id := by
    obtain ⟨place, hplace⟩ := Graph.exists_position?_eq_some hid
    rw [hplace, Option.getD_some, hgraph.idAt?_eq_some_iff, ← hgraph.position?_toGraph,
      hplace]
  exact ⟨hback (hgraph.wellFormed.source_mem edge hedge),
    hback (hgraph.wellFormed.target_mem edge hedge)⟩

theorem Consistent.mem_backbone_iff (place : Nat) :
    place ∈ graph.toGraph.backbone ↔
      ∃ edge ∈ graph.edges, edge.kind = .nextToken ∧
        (graph.idAt? place = some edge.source ∨ graph.idAt? place = some edge.target) := by
  have hid (id : UInt64) : graph.toGraph.ids[place]? = some id ↔
      graph.idAt? place = some id := by
    rw [hgraph.ids_toGraph, hgraph.idAt?_eq_some_iff, hgraph.position?_eq_some_iff]
  rw [Graph.mem_backbone_iff]
  constructor
  · rintro ⟨id, ⟨_, hpair, hends⟩, hget⟩
    obtain ⟨edge, hedge, rfl⟩ := List.mem_map.mp hpair
    obtain ⟨hmem, hkind⟩ := List.mem_filter.mp hedge
    refine ⟨edge, hmem, of_decide_eq_true hkind, ?_⟩
    rw [(hid id).mp hget]
    exact hends.imp (congrArg some) (congrArg some)
  · rintro ⟨edge, hmem, hkind, hends⟩
    have hpair : edge.ends ∈ graph.toGraph.links :=
      List.mem_map_of_mem (List.mem_filter.mpr ⟨hmem, decide_eq_true hkind⟩)
    rcases hends with hsource | htarget
    · exact ⟨edge.source, ⟨_, hpair, .inl rfl⟩, (hid _).mpr hsource⟩
    · exact ⟨edge.target, ⟨_, hpair, .inr rfl⟩, (hid _).mpr htarget⟩

/-- The example of the flat form describes the working graph. -/
theorem Consistent.describes_of_project {target : Target} {training : TrainingExample}
    (hproject : graph.toGraph.project target = .ok training) :
    training.Describes graph := by
  rw [hgraph.wellFormed.project_eq_ok] at hproject
  cases hproject
  exact {
    nodeLabels_eq := rfl
    nodeLabel_eq := fun place => by
      rw [hgraph.nodeAt?_eq]
      exact List.getElem?_map
    pairwise_backbone := graph.toGraph.pairwise_backbone
    mem_backbone_iff := hgraph.mem_backbone_iff
    byKind_edges := byKind_groupByKind _
    ends_eq := fun kind => by
      rw [lookup_groupByKind, getD_groupOf?, List.filter_map, List.map_map, List.map_map]
      apply List.map_congr_left
      intro edge hedge
      obtain ⟨hsource, htarget⟩ := hgraph.idAt?_placeEdge (List.mem_filter.mp hedge).1
      exact Prod.ext hsource htarget
    lookup_eq_none_iff := fun kind => by
      rw [lookup_groupByKind, groupOf?_eq_none_iff, List.forall_mem_map]
      rfl
    logNode_eq := by
      simp only [hgraph.nodeAt?_eq]
      exact firstLog_cases graph.nodes }

/-- Places are settled by the ids of their nodes. -/
theorem Consistent.eq_of_idAt?_eq_some {place other : Nat} {id : UInt64}
    (hplace : graph.idAt? place = some id) (hother : graph.idAt? other = some id) :
    place = other := by
  rw [hgraph.idAt?_eq_some_iff] at hplace hother
  exact Option.some_inj.mp (hplace.symm.trans hother)

/-- Pairs of places are settled by the edges that they stand for. -/
theorem Consistent.eq_of_map_idAt?_eq {pairs others : List (Nat × Nat)} {edges : List Edge}
    (hpairs : pairs.map (fun pair => (graph.idAt? pair.1, graph.idAt? pair.2)) =
      edges.map fun edge => (some edge.source, some edge.target))
    (hothers : others.map (fun pair => (graph.idAt? pair.1, graph.idAt? pair.2)) =
      edges.map fun edge => (some edge.source, some edge.target)) :
    pairs = others := by
  induction edges generalizing pairs others with
  | nil => rw [List.map_eq_nil_iff.mp hpairs, List.map_eq_nil_iff.mp hothers]
  | cons edge rest ih =>
      obtain ⟨pair, pairs, rfl, hpair, hpairs⟩ := List.map_eq_cons_iff.mp hpairs
      obtain ⟨other, others, rfl, hother, hothers⟩ := List.map_eq_cons_iff.mp hothers
      injection hpair with hsource htarget
      injection hother with hotherSource hotherTarget
      rw [ih hpairs hothers, Prod.ext (hgraph.eq_of_idAt?_eq_some hsource hotherSource)
        (hgraph.eq_of_idAt?_eq_some htarget hotherTarget)]

theorem Consistent.logNode_eq_of_describes {training other : TrainingExample}
    (htraining : training.Describes graph) (hother : other.Describes graph) :
    training.logNode = other.logNode := by
  have hmem {place : Nat} {node : Node} (hnode : graph.nodeAt? place = some node) :
      node ∈ graph.nodes :=
    List.mem_of_getElem? (hgraph.nodeAt?_eq place ▸ hnode)
  -- both have a sentinel or none, and of two first sentinels none is in front
  rcases htraining.logNode_eq with
      ⟨hnone, hnoLog⟩ | ⟨place, node, hplace, hnode, hlog, hfirst⟩ <;>
    rcases hother.logNode_eq with
      ⟨hotherNone, hotherNoLog⟩ |
        ⟨otherPlace, otherNode, hotherPlace, hotherNode, hotherLog, hotherFirst⟩
  · rw [hnone, hotherNone]
  · exact absurd hotherLog (hnoLog otherNode (hmem hotherNode))
  · exact absurd hlog (hotherNoLog node (hmem hnode))
  · have hle : place ≤ otherPlace := Nat.le_of_not_lt fun hlt =>
      hfirst otherPlace hlt otherNode hotherNode hotherLog
    have hge : otherPlace ≤ place := Nat.le_of_not_lt fun hlt =>
      hotherFirst place hlt node hnode hlog
    rw [hplace, hotherPlace, Nat.le_antisymm hle hge]

/-- Nothing is left open: examples with the same target that describe the same graph are
equal. -/
theorem Consistent.eq_of_describes {training other : TrainingExample}
    (htraining : training.Describes graph) (hother : other.Describes graph)
    (htarget : training.target = other.target) : training = other := by
  have hlabels : training.nodeLabels = other.nodeLabels :=
    htraining.nodeLabels_eq.trans hother.nodeLabels_eq.symm
  have hbackbone : training.backbone = other.backbone := by
    apply htraining.pairwise_backbone.eq_of_mem_iff hother.pairwise_backbone
    exact fun place => (htraining.mem_backbone_iff place).trans
      (hother.mem_backbone_iff place).symm
  have hlookup (kind : EdgeKind) :
      training.edges.lookup kind = other.edges.lookup kind := by
    have hnone := (htraining.lookup_eq_none_iff kind).trans
      (hother.lookup_eq_none_iff kind).symm
    have hends := htraining.ends_eq kind
    have hotherEnds := hother.ends_eq kind
    cases hpairs : training.edges.lookup kind with
    | none => exact (hnone.mp hpairs).symm
    | some pairs =>
        cases hothers : other.edges.lookup kind with
        | none =>
            rw [hnone.mpr hothers] at hpairs
            cases hpairs
        | some others =>
            rw [hpairs, Option.getD_some] at hends
            rw [hothers, Option.getD_some] at hotherEnds
            rw [hgraph.eq_of_map_idAt?_eq hends hotherEnds]
  have hedges : training.edges = other.edges := by
    apply htraining.byKind_edges.eq_of_mem_iff hother.byKind_edges
    intro kind pairs
    rw [← htraining.byKind_edges.lookup_eq_some_iff, hlookup kind,
      hother.byKind_edges.lookup_eq_some_iff]
  have hlogNode := hgraph.logNode_eq_of_describes htraining hother
  cases training
  cases other
  simp_all

/-- A consistent working graph has an example that describes it, and its flat form has
the same one.  Every place in the example is that of a label. -/
theorem Consistent.example_describes (target : Target) :
    ∃ training, graph.project target = .ok training ∧
      graph.toGraph.project target = .ok training ∧
      training.target = target.tokens ∧ training.Describes graph ∧
      (∀ place ∈ training.places, place < training.nodeLabels.length) ∧
      training.logNode < training.nodeLabels.length := by
  have hflat := hgraph.wellFormed.project_eq_ok target
  have hdescribes := hgraph.describes_of_project hflat
  exact ⟨_, (hgraph.project_eq target).trans hflat, hflat, rfl, hdescribes,
    hdescribes.places_lt, hdescribes.logNode_range.2⟩

end

/-- Ids with gaps and out of order, two edges that are alike, an edge from a node to
itself and two sentinels. -/
theorem example_describes_of_sparse_ids :
    let nodes : List Node := [⟨40, .token, "a", 1, 1, 0, 1⟩,
      ⟨18446744073709551615, .token, "b", 1, 1, 1, 2⟩, ⟨0, .log, "", 1, 1, 2, 3⟩,
      ⟨7, .log, "c", 1, 1, 3, 4⟩]
    let edges : List Edge := [⟨7, 40, .comment⟩, ⟨40, 0, .nextToken⟩,
      ⟨40, 0, .nextToken⟩, ⟨7, 7, .astChild⟩, ⟨0, 7, .comment⟩]
    let training : TrainingExample := {
      nodeLabels := ["a", "b", "", "c"]
      backbone := [0, 2]
      edges := [(.nextToken, [(0, 2), (0, 2)]), (.astChild, [(3, 3)]),
        (.comment, [(3, 0), (2, 3)])]
      target := ["info"]
      logNode := 2 }
    let graph : ArenaGraph := ⟨"A.java", .ofList (nodes.map fun node => (node.id, node)),
      nodes.map Node.id, edges⟩
    graph.Consistent ∧ graph.project (.severity .info) = .ok training ∧
      training.Describes graph := by
  intro nodes edges training graph
  have hgraph : graph.Consistent := by
    have hparts : ofParts "A.java" nodes edges = .ok graph := by
      decide +kernel
    exact consistent_of_ofParts hparts
  have htraining : graph.project (.severity .info) = .ok training := by
    decide +kernel
  obtain ⟨found, hproject, _, _, hdescribes, _⟩ :=
    hgraph.example_describes (.severity .info)
  rw [htraining] at hproject
  cases hproject
  exact ⟨hgraph, htraining, hdescribes⟩

end ArenaGraph

end LogCorpus
