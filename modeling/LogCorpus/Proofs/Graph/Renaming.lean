/-
Renamed ids.

A renaming gives every node another id and moves the edges along.  What nodes say and
where they stand is kept.  Under a renaming that keeps ids apart, a graph stays well
formed and a node keeps its place; the order of the ids themselves, by which an arena
is sorted, may change in any way.
-/
import LogCorpus.Proofs.Graph.Arena
import LogCorpus.Proofs.Training.Backbone
import Mathlib.Data.List.Perm.Basic

namespace LogCorpus

/-- The node under its new id. -/
def Node.rename (f : UInt64 → UInt64) (node : Node) : Node :=
  { node with id := f node.id }

/-- The edge between the new ids. -/
def Edge.rename (f : UInt64 → UInt64) (edge : Edge) : Edge :=
  { edge with source := f edge.source, target := f edge.target }

/-- The fault with new ids in it. -/
def Fault.rename (f : UInt64 → UInt64) : Fault → Fault
  | rootNotFound id => rootNotFound (f id)
  | terminatorNotFound id => terminatorNotFound (f id)
  | danglingEdge source target => danglingEdge (f source) (f target)
  | duplicateNodeId id => duplicateNodeId (f id)
  | fault => fault

@[simp]
theorem Fault.reason_rename (f : UInt64 → UInt64) (fault : Fault) :
    (fault.rename f).reason = fault.reason := by
  cases fault <;> rfl

section

variable {f : UInt64 → UInt64} (hf : Function.Injective f)
include hf

theorem contains_map_rename (ids : List UInt64) (id : UInt64) :
    (ids.map f).contains (f id) = ids.contains id := by
  rw [Bool.eq_iff_iff, List.contains_iff_mem, List.contains_iff_mem,
    List.mem_map_of_injective hf]

theorem beq_rename (id other : UInt64) : (f id == f other) = (id == other) := by
  rw [Bool.eq_iff_iff, beq_iff_eq, beq_iff_eq, hf.eq_iff]

end

namespace Graph

/-- The graph with new ids. -/
def rename (f : UInt64 → UInt64) (graph : Graph) : Graph :=
  { graph with
    nodes := graph.nodes.map (Node.rename f)
    edges := graph.edges.map (Edge.rename f) }

theorem ids_rename (f : UInt64 → UInt64) (graph : Graph) :
    (graph.rename f).ids = graph.ids.map f := by
  rw [ids, ids, rename, List.map_map, List.map_map]
  rfl

/-- A new edge joins the new ids of its ends. -/
theorem links_rename (f : UInt64 → UInt64) (graph : Graph) :
    (graph.rename f).links = graph.links.map (Prod.map f f) := by
  rw [links, links, rename, List.filter_map, List.map_map, List.map_map]
  rfl

theorem logPlace_rename (f : UInt64 → UInt64) (graph : Graph) :
    (graph.rename f).logPlace = graph.logPlace := by
  rw [logPlace, logPlace, Graph.rename, List.findIdx?_map]
  rfl

section

variable {f : UInt64 → UInt64} (hf : Function.Injective f)
include hf

theorem WellFormed.rename {graph : Graph} (hgraph : graph.WellFormed) :
    (graph.rename f).WellFormed where
  nodup_ids := by
    rw [ids_rename]
    exact hgraph.nodup_ids.map hf
  source_mem := by
    intro edge hedge
    obtain ⟨old, hold, rfl⟩ := List.mem_map.mp hedge
    rw [ids_rename]
    exact List.mem_map_of_mem (hgraph.source_mem old hold)
  target_mem := by
    intro edge hedge
    obtain ⟨old, hold, rfl⟩ := List.mem_map.mp hedge
    rw [ids_rename]
    exact List.mem_map_of_mem (hgraph.target_mem old hold)

/-- A node keeps its place. -/
theorem position?_rename (graph : Graph) (id : UInt64) :
    (graph.rename f).position? (f id) = graph.position? id := by
  rw [position?, position?, Graph.rename, List.findIdx?_map]
  congr 1
  funext node
  exact beq_rename hf node.id id

/-- An edge keeps the places of its ends. -/
theorem placeEdge_rename (graph : Graph) (edge : Edge) :
    (graph.rename f).placeEdge (edge.rename f) = graph.placeEdge edge := by
  rw [placeEdge, placeEdge, Edge.rename, position?_rename hf, position?_rename hf]

theorem backbone_rename (graph : Graph) :
    (graph.rename f).backbone = graph.backbone := by
  apply (graph.rename f).pairwise_backbone.eq_of_mem_iff graph.pairwise_backbone
  intro place
  rw [mem_backbone_iff, mem_backbone_iff, links_rename, ids_rename]
  simp only [List.getElem?_map, Option.map_eq_some_iff]
  constructor
  · rintro ⟨_, ⟨_, hpair, hend⟩, id, hid, rfl⟩
    obtain ⟨pair, hold, rfl⟩ := List.mem_map.mp hpair
    exact ⟨id, ⟨pair, hold, hend.imp (fun h => hf h) fun h => hf h⟩, hid⟩
  · rintro ⟨id, ⟨pair, hold, hend⟩, hid⟩
    exact ⟨f id, ⟨_, List.mem_map_of_mem hold, hend.imp (congrArg f) (congrArg f)⟩,
      id, hid, rfl⟩

/-- No id reaches a training example. -/
theorem WellFormed.project_rename {graph : Graph} (hgraph : graph.WellFormed)
    (target : Target) : (graph.rename f).project target = graph.project target := by
  have hlabels : (graph.rename f).nodes.map Node.contents =
      graph.nodes.map Node.contents := List.map_map
  have hedges : (graph.rename f).edges.map (graph.rename f).placeEdge =
      graph.edges.map graph.placeEdge := by
    rw [Graph.rename, List.map_map]
    exact List.map_congr_left fun edge _ => placeEdge_rename hf graph edge
  rw [(hgraph.rename hf).project_eq_ok, hgraph.project_eq_ok, hlabels, hedges,
    graph.backbone_rename hf, logPlace_rename]

end

end Graph

namespace ArenaGraph

/-- The working graph with new ids.  The arena is built anew, in the order of the new
ids. -/
def rename (f : UInt64 → UInt64) (graph : ArenaGraph) : ArenaGraph :=
  { graph with
    arena := .ofList
      (graph.arena.toList.map fun entry => (f entry.1, entry.2.rename f))
    order := graph.order.map f
    edges := graph.edges.map (Edge.rename f) }

theorem mem_arena_rename_iff (f : UInt64 → UInt64) (graph : ArenaGraph) (id : UInt64) :
    id ∈ (graph.rename f).arena ↔ ∃ old ∈ graph.arena, f old = id := by
  have hkeys : (graph.arena.toList.map fun entry => (f entry.1, entry.2.rename f)).map
      Prod.fst = graph.arena.keys.map f := by
    rw [← Std.ExtTreeMap.map_fst_toList_eq_keys, List.map_map, List.map_map]
    rfl
  rw [rename, Std.ExtTreeMap.mem_ofList, List.contains_iff_mem, hkeys, List.mem_map]
  simp only [Std.ExtTreeMap.mem_keys]

section

variable {f : UInt64 → UInt64} (hf : Function.Injective f)
include hf

/-- A node is found under its new id. -/
theorem node?_rename (graph : ArenaGraph) (id : UInt64) :
    (graph.rename f).node? (f id) = (graph.node? id).map (Node.rename f) := by
  cases hnode : graph.node? id with
  | none =>
      have hold : id ∉ graph.arena := by
        rw [Std.ExtTreeMap.mem_iff_isSome_getElem?, ← node?, hnode]
        exact Bool.false_ne_true
      apply Std.ExtTreeMap.getElem?_eq_none
      rw [mem_arena_rename_iff]
      rintro ⟨old, hmem, heq⟩
      exact hold (hf heq ▸ hmem)
  | some node =>
      -- distinct ids stay distinct, so no entry of the new arena hides another
      have hdistinct : (graph.arena.toList.map fun entry =>
          (f entry.1, entry.2.rename f)).Pairwise
            fun left right => ¬ compare left.1 right.1 = .eq := by
        rw [List.pairwise_map]
        refine Std.ExtTreeMap.distinct_keys_toList.imp fun hne heq => hne ?_
        rw [hf (Std.LawfulEqOrd.eq_of_compare heq)]
        exact Std.ReflCmp.compare_self
      apply Std.ExtTreeMap.getElem?_ofList_of_mem Std.ReflCmp.compare_self hdistinct
      exact List.mem_map.mpr
        ⟨(id, node), Std.ExtTreeMap.mem_toList_iff_getElem?_eq_some.mpr hnode, rfl⟩

theorem Consistent.rename {graph : ArenaGraph} (hgraph : graph.Consistent) :
    (graph.rename f).Consistent where
  nodup_order := hgraph.nodup_order.map hf
  mem_order_iff := by
    intro id
    rw [mem_arena_rename_iff]
    change id ∈ graph.order.map f ↔ _
    simp only [List.mem_map, hgraph.mem_order_iff]
  id_eq_key := by
    intro id node hnode
    obtain ⟨old, _, rfl⟩ := (mem_arena_rename_iff f graph id).mp
      (Std.ExtTreeMap.mem_iff_isSome_getElem?.mpr (by rw [hnode]; rfl))
    obtain ⟨before, hbefore, rfl⟩ := Option.map_eq_some_iff.mp
      ((graph.node?_rename hf old).symm.trans hnode)
    exact congrArg f (hgraph.id_eq_key old before hbefore)
  source_mem := by
    intro edge hedge
    obtain ⟨old, hold, rfl⟩ := List.mem_map.mp hedge
    exact (mem_arena_rename_iff f graph _).mpr ⟨_, hgraph.source_mem old hold, rfl⟩
  target_mem := by
    intro edge hedge
    obtain ⟨old, hold, rfl⟩ := List.mem_map.mp hedge
    exact (mem_arena_rename_iff f graph _).mpr ⟨_, hgraph.target_mem old hold, rfl⟩

/-- The flat form has the same new ids. -/
theorem toGraph_rename (graph : ArenaGraph) :
    (graph.rename f).toGraph = graph.toGraph.rename f := by
  have hnodes : (graph.rename f).nodes = graph.nodes.map (Node.rename f) := by
    change (graph.order.map f).filterMap (graph.rename f).node? = _
    rw [nodes, List.filterMap_map, List.map_filterMap]
    exact List.filterMap_congr fun id _ => graph.node?_rename hf id
  rw [toGraph, hnodes]
  rfl

end

end ArenaGraph

end LogCorpus
