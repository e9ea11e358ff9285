/-
Two passes make the example of the flat form.

After the nodes in front, a scan holds their labels, the places of those that are linked
and the place of the first sentinel; after the edges in front, every group holds the
pairs of its kind in the order of the edges.  Each pass goes through all of them, and in
a consistent working graph every endpoint has its place.
-/
import LogCorpus.Proofs.Graph.Arena
import LogCorpus.Proofs.Graph.Kind
import LogCorpus.Proofs.Lists
import LogCorpus.Proofs.Stateful
import LogCorpus.Proofs.Training.Projection
import LogCorpus.Training.Traversal

namespace LogCorpus

/-! ### Nodes -/

theorem firstLog_append_singleton (nodes : List Node) (node : Node) :
    firstLog (nodes ++ [node]) =
      if node.kind = .log ∧ firstLog nodes < 0 then (nodes.length : Int)
      else firstLog nodes := by
  rw [firstLog, firstLog, List.findIdx?_append]
  cases nodes.findIdx? fun node => node.kind = .log with
  | none => by_cases hlog : node.kind = .log <;> simp [hlog]
  | some place => simp [Int.not_lt.mpr (Int.natCast_nonneg place)]

/-- What a scan holds after some nodes. -/
structure NodeScan.Covers (linked : Std.TreeSet UInt64) (nodes : List Node)
    (scan : NodeScan) : Prop where
  labels_eq : scan.labels.toList = nodes.map Node.contents
  backbone_eq : scan.backbone.toList =
    (nodes.zipIdx.filter fun entry => linked.contains entry.1.id).map Prod.snd
  logNode_eq : scan.logNode = firstLog nodes

namespace NodeScan

variable {linked : Std.TreeSet UInt64} {front : List Node} {scan : NodeScan}

theorem covers_nil (linked : Std.TreeSet UInt64) : Covers linked [] {} where
  labels_eq := rfl
  backbone_eq := rfl
  logNode_eq := rfl

theorem Covers.step (hscan : scan.Covers linked front) (node : Node) :
    (scan.step linked (node, front.length)).Covers linked (front ++ [node]) where
  labels_eq := by
    rw [List.map_append, ← hscan.labels_eq]
    exact Array.toList_push
  backbone_eq := by
    rw [List.zipIdx_append, List.filter_append, List.map_append, ← hscan.backbone_eq]
    by_cases hlinked : linked.contains node.id <;> simp [NodeScan.step, hlinked]
  logNode_eq := by
    rw [firstLog_append_singleton, ← hscan.logNode_eq]
    rfl

/-- The induction is on the nodes that are left; those in front are covered. -/
theorem Covers.foldl_step (hscan : scan.Covers linked front) (back : List Node) :
    ((back.zipIdx front.length).foldl (NodeScan.step linked) scan).Covers linked
      (front ++ back) := by
  induction back generalizing front scan with
  | nil => rwa [List.append_nil]
  | cons node rest ih =>
      have hnext := ih (hscan.step node)
      rwa [List.length_append, List.append_assoc] at hnext

end NodeScan

/-! ### Edges -/

theorem groupOf?_append_singleton (placed : List PlacedEdge) (edge : PlacedEdge)
    (kind : EdgeKind) :
    groupOf? (placed ++ [edge]) kind =
      if edge.kind = kind then
        some ((groupOf? placed kind).getD [] ++ [(edge.source, edge.target)])
      else groupOf? placed kind := by
  rw [groupOf?, groupOf?, List.filter_append]
  by_cases hkind : edge.kind = kind
  · cases placed.filter fun edge => edge.kind = kind <;> simp [hkind]
  · simp [hkind]

/-- What the groups hold after some edges. -/
def EdgeGroups.Covers (placed : List PlacedEdge) (groups : EdgeGroups) : Prop :=
  ∀ kind : EdgeKind, groups[kind]?.map Array.toList = groupOf? placed kind

namespace EdgeGroups

variable {front : List PlacedEdge} {groups : EdgeGroups}

theorem covers_nil : Covers [] ∅ := by
  intro kind
  simp [groupOf?]

theorem Covers.push (hgroups : groups.Covers front) (edge : PlacedEdge) :
    (groups.push edge).Covers (front ++ [edge]) := by
  intro kind
  rw [groupOf?_append_singleton, EdgeGroups.push, Std.TreeMap.getElem?_alter]
  by_cases hkind : edge.kind = kind
  · subst hkind
    rw [if_pos Std.ReflOrd.compare_self, if_pos rfl, ← hgroups edge.kind]
    cases groups[edge.kind]? <;> simp
  · have hother : compare edge.kind kind ≠ .eq :=
      fun hsame => hkind (Std.LawfulEqOrd.eq_of_compare hsame)
    rw [if_neg hother, if_neg hkind]
    exact hgroups kind

theorem covers_foldl (placed : List PlacedEdge) :
    (placed.foldl EdgeGroups.push ∅).Covers placed :=
  foldl_of_step Covers.push covers_nil placed

/-- The groups of some edges, listed by kind. -/
theorem Covers.toList_eq (hgroups : groups.Covers front) :
    (groups.toList.map fun group => (group.1, group.2.toList)) =
      Graph.project.groupByKind front := by
  have hlisted : ByKind (groups.toList.map fun group => (group.1, group.2.toList)) := by
    apply List.pairwise_map.mpr
    apply (Std.TreeMap.ordered_keys_toList (t := groups)).imp
    exact fun {first second} hlt =>
      Nat.compare_eq_lt.mp (hlt : compare first.1.ordinal second.1.ordinal = .lt)
  apply hlisted.eq_of_mem_iff (byKind_groupByKind front)
  intro kind pairs
  rw [mem_groupByKind, ← hgroups kind, Option.map_eq_some_iff, List.mem_map]
  constructor
  · rintro ⟨⟨other, group⟩, hgroup, hsame⟩
    cases hsame
    exact ⟨group, Std.TreeMap.mem_toList_iff_getElem?_eq_some.mp hgroup, rfl⟩
  · rintro ⟨group, hgroup, rfl⟩
    exact ⟨_, Std.TreeMap.mem_toList_iff_getElem?_eq_some.mpr hgroup, rfl⟩

end EdgeGroups

/-! ### Both passes -/

namespace ArenaGraph

variable {graph : ArenaGraph} (hgraph : graph.Consistent)
include hgraph

/-- Every edge is taken up with the places of its endpoints. -/
theorem Consistent.step_eq_ok {edge : Edge} (hedge : edge ∈ graph.edges)
    (groups : EdgeGroups) :
    groups.step graph.positions edge = .ok (groups.push (graph.toGraph.placeEdge edge)) := by
  have hflat := hgraph.wellFormed
  obtain ⟨source, hsource⟩ :=
    Graph.exists_position?_eq_some (hflat.source_mem edge hedge)
  obtain ⟨target, htarget⟩ :=
    Graph.exists_position?_eq_some (hflat.target_mem edge hedge)
  simp only [EdgeGroups.step, hgraph.getElem?_positions, ← hgraph.position?_toGraph,
    Graph.placeEdge, hsource, htarget, Option.getD_some]

/-- The two passes make the example of the flat form. -/
theorem Consistent.project_eq (target : Target) :
    graph.project target = graph.toGraph.project target := by
  have hscan : (graph.nodes.zipIdx.foldl (NodeScan.step graph.linked) {}).Covers
      graph.linked graph.nodes :=
    (NodeScan.covers_nil graph.linked).foldl_step graph.nodes
  have hgroups := foldlM_eq_ok (fun edge hedge => hgraph.step_eq_ok hedge) ∅
  have hcovers := EdgeGroups.covers_foldl (graph.edges.map graph.toGraph.placeEdge)
  rw [List.foldl_map] at hcovers
  have hbackbone : graph.toGraph.backbone =
      (graph.nodes.zipIdx.filter fun entry => graph.linked.contains entry.1.id).map
        Prod.snd := by
    rw [Graph.backbone, Graph.ids, List.zipIdx_map, List.filter_map, List.map_map]
    rfl
  rw [project, hgroups, hgraph.wellFormed.project_eq_ok]
  change Except.ok _ = _
  rw [hscan.labels_eq, hscan.backbone_eq, hscan.logNode_eq, hcovers.toList_eq, hbackbone]
  rfl

end ArenaGraph

end LogCorpus
