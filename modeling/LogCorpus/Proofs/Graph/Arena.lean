/-
Working graphs that fit together.

In a consistent working graph the order lists every key of the arena once, every
node lies under its own id and every edge has its endpoints in the arena.  Then
the graph and its flat form answer alike, and nothing but the flat form counts:
consistent graphs with the same flat form are equal.
-/
import LogCorpus.Graph.Arena
import Mathlib.Data.List.Nodup
import Mathlib.Data.List.Perm.Basic

namespace LogCorpus

namespace ArenaGraph

/-- Order, arena and edges fit together, and every node has its id as key. -/
structure Consistent (graph : ArenaGraph) : Prop where
  nodup_order : graph.order.Nodup
  mem_order_iff : ∀ id : UInt64, id ∈ graph.order ↔ id ∈ graph.arena
  id_eq_key : ∀ (id : UInt64) (node : Node), graph.arena[id]? = some node → node.id = id
  source_mem : ∀ edge ∈ graph.edges, edge.source ∈ graph.arena
  target_mem : ∀ edge ∈ graph.edges, edge.target ∈ graph.arena

theorem consistent_empty (sourceFile : String) :
    (empty sourceFile).Consistent where
  nodup_order := List.nodup_nil
  mem_order_iff id := by simp [empty]
  id_eq_key id node hnode := by simp [empty] at hnode
  source_mem edge hedge := by simp [empty] at hedge
  target_mem edge hedge := by simp [empty] at hedge

/-- The node under an id; a blank one stands for a missing one. -/
def nodeOf (graph : ArenaGraph) (id : UInt64) : Node :=
  (graph.node? id).getD ⟨id, .token, "", 0, 0, 0, 0⟩

theorem contains_iff_mem (graph : ArenaGraph) (id : UInt64) :
    graph.contains id ↔ id ∈ graph.arena :=
  Std.ExtTreeMap.contains_iff_mem

section

variable {graph : ArenaGraph} (hgraph : graph.Consistent)
include hgraph

theorem Consistent.node?_eq_some {id : UInt64} (hid : id ∈ graph.order) :
    graph.node? id = some (graph.nodeOf id) := by
  have hmem := (hgraph.mem_order_iff id).mp hid
  obtain ⟨node, hnode⟩ := Option.isSome_iff_exists.mp
    (Std.ExtTreeMap.isSome_getElem?_iff_mem.mpr hmem)
  rw [nodeOf, node?, hnode]
  rfl

theorem Consistent.id_nodeOf {id : UInt64} (hid : id ∈ graph.order) :
    (graph.nodeOf id).id = id :=
  hgraph.id_eq_key id _ (hgraph.node?_eq_some hid)

theorem Consistent.nodes_eq_map : graph.nodes = graph.order.map graph.nodeOf := by
  rw [nodes, ← List.filterMap_eq_map]
  exact List.filterMap_congr fun id hid => hgraph.node?_eq_some hid

theorem Consistent.length_nodes : graph.nodes.length = graph.nodeCount := by
  rw [hgraph.nodes_eq_map, List.length_map, nodeCount]

/-- The flat form lists the same ids in the same order. -/
theorem Consistent.ids_toGraph : graph.toGraph.ids = graph.order := by
  rw [Graph.ids, toGraph, hgraph.nodes_eq_map, List.map_map]
  conv_rhs => rw [← List.map_id graph.order]
  exact List.map_congr_left fun id hid => hgraph.id_nodeOf hid

theorem Consistent.contains_toGraph (id : UInt64) :
    graph.toGraph.contains id = graph.contains id := by
  rw [Bool.eq_iff_iff, contains_iff_mem, ← hgraph.mem_order_iff,
    Graph.contains, hgraph.ids_toGraph, List.contains_iff_mem]

theorem Consistent.position?_toGraph (id : UInt64) :
    graph.toGraph.position? id = graph.position? id := by
  rw [position?, ← hgraph.ids_toGraph, Graph.ids, List.findIdx?_map]
  rfl

theorem Consistent.wellFormed : graph.toGraph.WellFormed where
  nodup_ids := hgraph.ids_toGraph ▸ hgraph.nodup_order
  source_mem edge hedge := by
    rw [hgraph.ids_toGraph, hgraph.mem_order_iff]
    exact hgraph.source_mem edge hedge
  target_mem edge hedge := by
    rw [hgraph.ids_toGraph, hgraph.mem_order_iff]
    exact hgraph.target_mem edge hedge

theorem Consistent.nodeAt?_eq (index : Nat) :
    graph.nodeAt? index = graph.nodes[index]? := by
  rw [hgraph.nodes_eq_map, List.getElem?_map, nodeAt?]
  cases hid : graph.order[index]? with
  | none => rfl
  | some id => exact hgraph.node?_eq_some (List.mem_of_getElem? hid)

end

/-- Nothing but the flat form of a consistent graph counts. -/
theorem Consistent.eq_of_toGraph_eq {graph other : ArenaGraph}
    (hgraph : graph.Consistent) (hother : other.Consistent)
    (heq : graph.toGraph = other.toGraph) : graph = other := by
  have horder : graph.order = other.order := by
    rw [← hgraph.ids_toGraph, heq, hother.ids_toGraph]
  have hnodes : graph.nodes = other.nodes := congrArg Graph.nodes heq
  rw [hgraph.nodes_eq_map, hother.nodes_eq_map, ← horder] at hnodes
  have harena : graph.arena = other.arena := by
    apply Std.ExtTreeMap.ext_getElem?
    intro id
    by_cases hid : id ∈ graph.order
    · have hnode := (List.map_inj_left.mp hnodes) id hid
      have hleft := hgraph.node?_eq_some hid
      have hright := hother.node?_eq_some (horder ▸ hid)
      rw [node?] at hleft hright
      rw [hleft, hright, hnode]
    · have hleft : id ∉ graph.arena := fun h => hid ((hgraph.mem_order_iff id).mpr h)
      have hright : id ∉ other.arena := fun h =>
        hid (horder ▸ (hother.mem_order_iff id).mpr h)
      rw [Std.ExtTreeMap.getElem?_eq_none hleft, Std.ExtTreeMap.getElem?_eq_none hright]
  have hsource : graph.sourceFile = other.sourceFile := congrArg Graph.sourceFile heq
  have hedges : graph.edges = other.edges := congrArg Graph.edges heq
  cases graph
  cases other
  simp_all

/-- Without repetitions, the first place of an id is its only one. -/
theorem findIdx?_eq_some_iff_of_nodup {ids : List UInt64} (hids : ids.Nodup)
    (id : UInt64) (place : Nat) :
    ids.findIdx? (fun other => other == id) = some place ↔
      ids[place]? = some id := by
  rw [List.findIdx?_eq_some_iff_getElem, List.getElem?_eq_some_iff]
  constructor
  · rintro ⟨hplace, hid, _⟩
    exact ⟨hplace, eq_of_beq hid⟩
  · rintro ⟨hplace, rfl⟩
    refine ⟨hplace, beq_self_eq_true _, fun other hother heq => ?_⟩
    have := hids.getElem_inj_iff.mp (eq_of_beq heq)
    omega

/-- Storing the places of a list without repetitions leaves the place of an id
that is in it, and what was stored before for any other id. -/
theorem foldl_insert_place {ids : List UInt64} (hids : ids.Nodup) (first : Nat)
    (places : Std.ExtTreeMap UInt64 Nat) (id : UInt64) :
    ((ids.zipIdx first).foldl
        (fun places entry => places.insert entry.1 entry.2) places)[id]? =
      ((ids.findIdx? (fun other => other == id)).map (· + first)).or places[id]? := by
  induction ids generalizing first places with
  | nil => rfl
  | cons head tail ih =>
      obtain ⟨hhead, htail⟩ := List.nodup_cons.mp hids
      rw [List.zipIdx_cons, List.foldl_cons, ih htail, List.findIdx?_cons,
        Std.ExtTreeMap.getElem?_insert]
      by_cases heq : head = id
      · subst heq
        have hnone : tail.findIdx? (fun other => other == head) = none := by
          rw [List.findIdx?_eq_none_iff]
          intro other hother
          exact beq_eq_false_iff_ne.mpr fun h => hhead (h ▸ hother)
        simp [hnone]
      · have hne : compare head id ≠ .eq := fun h => heq (Std.LawfulEqOrd.eq_of_compare h)
        rw [if_neg hne, if_neg (by simpa using heq)]
        cases tail.findIdx? (fun other => other == id) with
        | none => rfl
        | some place => simp [Nat.add_assoc, Nat.add_comm 1 first]

section

variable {graph : ArenaGraph} (hgraph : graph.Consistent)
include hgraph

theorem Consistent.position?_eq_some_iff (id : UInt64) (place : Nat) :
    graph.position? id = some place ↔ graph.order[place]? = some id :=
  findIdx?_eq_some_iff_of_nodup hgraph.nodup_order id place

theorem Consistent.getElem?_positions (id : UInt64) :
    graph.positions[id]? = graph.position? id := by
  rw [positions, foldl_insert_place hgraph.nodup_order]
  simp [position?]

theorem Consistent.mem_indexMap_iff (id : UInt64) (place : Nat) :
    (id, place) ∈ graph.indexMap ↔ graph.position? id = some place := by
  rw [indexMap, Std.ExtTreeMap.mem_toList_iff_getElem?_eq_some, hgraph.getElem?_positions]

theorem Consistent.exists_nodeAt?_iff (id : UInt64) (place : Nat) :
    (∃ node, graph.nodeAt? place = some node ∧ node.id = id) ↔
      graph.position? id = some place := by
  rw [hgraph.position?_eq_some_iff, nodeAt?]
  constructor
  · rintro ⟨node, hnode, rfl⟩
    obtain ⟨key, hkey, hnode⟩ := Option.bind_eq_some_iff.mp hnode
    rw [hgraph.id_eq_key key node hnode, hkey]
  · intro hid
    have hmem := List.mem_of_getElem? hid
    refine ⟨graph.nodeOf id, ?_, hgraph.id_nodeOf hmem⟩
    rw [hid]
    exact hgraph.node?_eq_some hmem

/-- The order counts the arena's nodes. -/
theorem Consistent.size_arena : graph.arena.size = graph.order.length := by
  rw [← Std.ExtTreeMap.length_keys]
  apply List.Perm.length_eq
  rw [List.perm_ext_iff_of_nodup Std.ExtTreeMap.nodup_keys hgraph.nodup_order]
  intro id
  rw [Std.ExtTreeMap.mem_keys, hgraph.mem_order_iff]

end

/-- New ids with nodes pass the check of the order. -/
theorem checkOrder_eq_ok (graph : ArenaGraph) (seen : Std.TreeSet UInt64)
    {ids : List UInt64} (hids : ids.Nodup) (hnew : ∀ id ∈ ids, id ∉ seen)
    (hnode : ∀ id ∈ ids, id ∈ graph.arena) :
    ∃ all, graph.checkOrder seen ids = .ok all ∧
      all.size = seen.size + ids.length := by
  induction ids generalizing seen with
  | nil => exact ⟨seen, rfl, rfl⟩
  | cons head tail ih =>
      obtain ⟨hhead, htail⟩ := List.nodup_cons.mp hids
      have hfresh : seen.contains head = false := by
        rw [← Bool.not_eq_true, Std.TreeSet.contains_iff_mem]
        exact hnew head List.mem_cons_self
      have hstored : graph.contains head = true :=
        (graph.contains_iff_mem head).mpr (hnode head List.mem_cons_self)
      have hrest : ∀ id ∈ tail, id ∉ seen.insert head := by
        intro id hid hmem
        rw [Std.TreeSet.mem_insert] at hmem
        rcases hmem with heq | hmem
        · exact hhead (Std.LawfulEqOrd.eq_of_compare heq ▸ hid)
        · exact hnew id (List.mem_cons_of_mem head hid) hmem
      obtain ⟨all, hall, hsize⟩ := ih (seen.insert head) htail hrest
        fun id hid => hnode id (List.mem_cons_of_mem head hid)
      refine ⟨all, ?_, ?_⟩
      · rw [checkOrder, hfresh, hstored]
        exact hall
      · rw [hsize, Std.TreeSet.size_insert, hfresh, List.length_cons]
        simp only [Bool.false_eq_true, ↓reduceIte]
        omega

theorem Consistent.danglingEdge?_eq_none {graph : ArenaGraph}
    (hgraph : graph.Consistent) : graph.danglingEdge? = none := by
  rw [danglingEdge?, List.find?_eq_none]
  intro edge hedge
  simp [(graph.contains_iff_mem _).mpr (hgraph.source_mem edge hedge),
    (graph.contains_iff_mem _).mpr (hgraph.target_mem edge hedge)]

theorem Consistent.check_eq_ok {graph : ArenaGraph} (hgraph : graph.Consistent) :
    graph.check = .ok () := by
  obtain ⟨seen, hseen, hsize⟩ := graph.checkOrder_eq_ok ∅
    hgraph.nodup_order (fun id _ => Std.TreeSet.not_mem_emptyc)
    fun id hid => (hgraph.mem_order_iff id).mp hid
  have hcount : seen.size = graph.arena.size := by
    rw [hsize, hgraph.size_arena]
    simp
  simp [check, hseen, hcount, hgraph.danglingEdge?_eq_none, bind, Except.bind]
  rfl

end ArenaGraph

end LogCorpus
