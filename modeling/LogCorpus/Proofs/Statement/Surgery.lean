/-
Excision in place against excision of the flat form.

Each step of an excision is described by the graph that it leaves.  After the
root is sealed, the graph is consistent again and its flat form is the
contraction of the flat form before; blanking the level accesses keeps both.
-/
import LogCorpus.Proofs.Graph.Building
import LogCorpus.Proofs.Lists
import LogCorpus.Proofs.Statement.Span
import LogCorpus.Statement.Surgery

namespace LogCorpus

namespace Edge

/-- Rescuing an edge relinks it and counts the endpoints that change. -/
theorem run_rescue {doomed : Std.TreeSet UInt64} {ids : List UInt64}
    (hdoomed : ∀ id, doomed.contains id = ids.contains id) (root : UInt64)
    (edge : Edge) (count : Nat) :
    (edge.rescue doomed root).run count =
      (edge.relink ids root,
        count + (edge.movesSource ids root).toNat +
          (edge.movesTarget ids root).toNat) := by
  obtain ⟨source, target, kind⟩ := edge
  simp only [rescue, relink, movesSource, movesTarget, hdoomed]
  by_cases hsource : source = root <;> by_cases htarget : target = root <;>
    cases ids.contains source <;> cases ids.contains target <;>
    simp_all <;> rfl

theorem run_mapM_rescue {doomed : Std.TreeSet UInt64} {ids : List UInt64}
    (hdoomed : ∀ id, doomed.contains id = ids.contains id) (root : UInt64)
    (edges : List Edge) (count : Nat) :
    (edges.mapM (rescue doomed root)).run count =
      (edges.map (relink ids root),
        count + (edges.countP (movesSource ids root) +
          edges.countP (movesTarget ids root))) := by
  induction edges generalizing count with
  | nil => rfl
  | cons edge rest ih =>
      have hrun : ((edge :: rest).mapM (rescue doomed root)).run count =
          let first := (edge.rescue doomed root).run count
          let others := (rest.mapM (rescue doomed root)).run first.2
          (first.1 :: others.1, others.2) := by
        rw [List.mapM_cons]
        rfl
      rw [hrun]
      simp only [run_rescue hdoomed, ih, List.countP_cons]
      refine Prod.ext rfl ?_
      cases edge.movesSource ids root <;> cases edge.movesTarget ids root <;>
        simp <;> omega

end Edge

theorem Node.id_sanitize (node : Node) : node.sanitize.id = node.id := by
  rw [sanitize]
  split <;> rfl

namespace ArenaGraph

theorem run_look (query : ArenaGraph → Except Fault α) (graph : ArenaGraph) :
    (Editing.look query).run graph = (query graph, graph) := rfl

theorem run_retainEdges (keep : Edge → Bool) (graph : ArenaGraph) :
    (retainEdges keep).run graph =
      (.ok (graph.edges.length - (graph.edges.filter keep).length),
        { graph with edges := graph.edges.filter keep }) := rfl

theorem run_relinkEdges {doomed : Std.TreeSet UInt64} {ids : List UInt64}
    (hdoomed : ∀ id, doomed.contains id = ids.contains id) (root : UInt64)
    (graph : ArenaGraph) :
    (relinkEdges doomed root).run graph =
      (.ok (graph.edges.countP (Edge.movesSource ids root) +
          graph.edges.countP (Edge.movesTarget ids root)),
        { graph with edges := graph.edges.map (Edge.relink ids root) }) := by
  have hrun : (relinkEdges doomed root).run graph =
      let moved := (graph.edges.mapM (Edge.rescue doomed root)).run 0
      (.ok moved.2, { graph with edges := moved.1 }) := rfl
  rw [hrun, Edge.run_mapM_rescue hdoomed]
  simp

theorem run_removeRange (first stop : Nat) (graph : ArenaGraph) :
    (removeRange first stop).run graph =
      (.ok (), { graph with
        order := graph.order.take first ++ graph.order.drop stop
        arena := (graph.idsBetween first stop).foldl
          (fun arena id => arena.erase id) graph.arena }) := rfl

theorem run_sealRoot {span : Span} {graph : ArenaGraph}
    (hroot : span.root ∈ graph.arena) :
    (sealRoot span).run graph =
      (.ok (), { graph with
        arena := graph.arena.modify span.root fun node =>
          { node with
            kind := .log
            contents := ""
            endLine := span.endLine
            endPosition := span.endPosition } }) := by
  change (ite ((!graph.contains span.root) = true) (throw _) _ :
    Editing Unit).run graph = _
  rw [(graph.contains_iff_mem span.root).mpr hroot]
  rfl

/-- Erasing ids leaves the nodes under all others. -/
theorem getElem?_foldl_erase (ids : List UInt64)
    (arena : Std.ExtTreeMap UInt64 Node) (id : UInt64) :
    (ids.foldl (fun arena id => arena.erase id) arena)[id]? =
      if id ∈ ids then none else arena[id]? := by
  induction ids generalizing arena with
  | nil => simp
  | cons head tail ih =>
      rw [List.foldl_cons, ih, Std.ExtTreeMap.getElem?_erase]
      by_cases htail : id ∈ tail
      · simp [htail]
      · by_cases hhead : id = head
        · simp [hhead]
        · have hne : compare head id ≠ .eq := fun h =>
            hhead (Std.LawfulEqOrd.eq_of_compare h).symm
          simp [htail, hhead, hne]

/-- The graph with every level access blanked. -/
def sanitized (graph : ArenaGraph) : ArenaGraph :=
  { graph with arena := graph.arena.map fun _ node => node.sanitize }

theorem node?_sanitized (graph : ArenaGraph) (id : UInt64) :
    graph.sanitized.node? id = (graph.node? id).map Node.sanitize :=
  Std.ExtTreeMap.getElem?_map

/-- Blanking in the arena blanks the nodes of the flat form. -/
theorem toGraph_sanitized (graph : ArenaGraph) :
    graph.sanitized.toGraph = graph.toGraph.sanitize := by
  have hnodes : graph.sanitized.nodes = graph.nodes.map Node.sanitize := by
    rw [nodes, nodes, List.map_filterMap]
    exact List.filterMap_congr fun id _ => graph.node?_sanitized id
  rw [toGraph, hnodes]
  rfl

section

variable {graph : ArenaGraph} (hgraph : graph.Consistent)
include hgraph

theorem Consistent.locate_toGraph (root : UInt64) :
    graph.toGraph.locate root = graph.locate root := by
  rw [Graph.locate, locate, hgraph.position?_toGraph]
  rfl

/-- The arena holds the nodes of the flat form, in another order. -/
theorem Consistent.toList_perm : graph.arena.toList.Perm
    (graph.order.map fun id => (id, graph.nodeOf id)) := by
  rw [List.perm_ext_iff_of_nodup]
  · rintro ⟨id, node⟩
    rw [Std.ExtTreeMap.mem_toList_iff_getElem?_eq_some]
    constructor
    · intro hnode
      have hid : id ∈ graph.order := (hgraph.mem_order_iff id).mpr
        (Std.ExtTreeMap.isSome_getElem?_iff_mem.mp (hnode ▸ rfl))
      have hstored := hgraph.node?_eq_some hid
      rw [node?, hnode] at hstored
      injection hstored with hstored
      exact List.mem_map.mpr ⟨id, hid, by rw [hstored]⟩
    · intro hmem
      obtain ⟨key, hkey, heq⟩ := List.mem_map.mp hmem
      injection heq with hid hnode
      subst hid hnode
      exact hgraph.node?_eq_some hkey
  · refine Std.ExtTreeMap.distinct_keys_toList.imp fun {first second} hne heq => ?_
    rw [heq] at hne
    exact hne Std.ReflCmp.compare_self
  · exact hgraph.nodup_order.map fun first second heq => (Prod.mk.inj heq).1

theorem Consistent.countP_toList (test : Node → Bool) :
    graph.arena.toList.countP (fun entry => test entry.2) =
      graph.nodes.countP test := by
  rw [hgraph.toList_perm.countP_eq, hgraph.nodes_eq_map, List.countP_map,
    List.countP_map]
  rfl

theorem Consistent.sanitized : graph.sanitized.Consistent where
  nodup_order := hgraph.nodup_order
  mem_order_iff id := by
    rw [ArenaGraph.sanitized, Std.ExtTreeMap.mem_map]
    exact hgraph.mem_order_iff id
  id_eq_key id node hnode := by
    obtain ⟨stored, hstored, rfl⟩ := Option.map_eq_some_iff.mp
      ((graph.node?_sanitized id).symm.trans hnode)
    rw [Node.id_sanitize]
    exact hgraph.id_eq_key id stored hstored
  source_mem edge hedge := Std.ExtTreeMap.mem_map.mpr (hgraph.source_mem edge hedge)
  target_mem edge hedge := Std.ExtTreeMap.mem_map.mpr (hgraph.target_mem edge hedge)

theorem Consistent.run_sanitize :
    sanitize.run graph = (.ok graph.toGraph.leakCount, graph.sanitized) := by
  rw [Graph.leakCount, toGraph, ← hgraph.countP_toList]
  rfl

end

end ArenaGraph

theorem Node.id_seal (span : Span) (node : Node) : (node.seal span).id = node.id := by
  unfold Node.seal
  split <;> rfl

namespace ArenaGraph

/-- The edges that are not inside a span. -/
def keptEdges (graph : ArenaGraph) (span : Span) : List Edge :=
  graph.edges.filter fun edge =>
    !edge.isInside (graph.idsBetween span.base span.stop)

/-- The graph with a span shrunk to its sentinel, before level accesses are
blanked. -/
def contracted (graph : ArenaGraph) (span : Span) : ArenaGraph :=
  { graph with
    order := graph.order.take (span.base + 1) ++ graph.order.drop span.stop
    arena := ((graph.idsBetween (span.base + 1) span.stop).foldl
        (fun arena id => arena.erase id) graph.arena).modify span.root fun node =>
      { node with
        kind := .log
        contents := ""
        endLine := span.endLine
        endPosition := span.endPosition }
    edges := (graph.keptEdges span).map
      (Edge.relink (graph.idsBetween span.base span.stop) span.root) }

/-- The graph without the nodes of a span behind its root and without the edges inside,
before the root is sealed. -/
def cleared (graph : ArenaGraph) (span : Span) : ArenaGraph :=
  { graph with
    order := graph.order.take (span.base + 1) ++ graph.order.drop span.stop
    arena := (graph.idsBetween (span.base + 1) span.stop).foldl
      (fun arena id => arena.erase id) graph.arena
    edges := (graph.keptEdges span).map
      (Edge.relink (graph.idsBetween span.base span.stop) span.root) }

/-- The steps of an excision up to the one that looks its root up again.  The result is
the span with the numbers of dropped edges and of relinked endpoints. -/
def clearStatement (root : UInt64) : Editing (Span × Nat × Nat) := do
  let span ← Editing.look fun graph => graph.locate root
  let ids := (← get).idsBetween span.base span.stop
  let doomed : Std.TreeSet UInt64 := .ofList ids
  let droppedEdges ← retainEdges fun edge =>
    !(doomed.contains edge.source && doomed.contains edge.target)
  let relinkedEndpoints ← relinkEdges doomed root
  removeRange (span.base + 1) span.stop
  return (span, droppedEdges, relinkedEndpoints)

/-- The steps of an excision from the one that looks its root up again. -/
def finishExcision : Span × Nat × Nat → Editing Surgery
  | (span, droppedEdges, relinkedEndpoints) => do
      sealRoot span
      let sanitizedNodes ← sanitize
      return { span, droppedEdges, relinkedEndpoints, sanitizedNodes }

theorem excise_eq_bind (root : UInt64) :
    excise root = clearStatement root >>= finishExcision := by
  simp only [excise, clearStatement, finishExcision, bind_assoc, pure_bind]

/-- What is counted when a span is shrunk to its sentinel. -/
def surgery (graph : ArenaGraph) (span : Span) : Surgery where
  span
  droppedEdges := graph.edges.length - (graph.keptEdges span).length
  relinkedEndpoints :=
    (graph.keptEdges span).countP
        (Edge.movesSource (graph.idsBetween span.base span.stop) span.root) +
      (graph.keptEdges span).countP
        (Edge.movesTarget (graph.idsBetween span.base span.stop) span.root)
  sanitizedNodes := (graph.contracted span).toGraph.leakCount

/-- A located statement is cleared. -/
theorem run_clearStatement {graph : ArenaGraph} {span : Span}
    (hlocate : graph.locate span.root = .ok span) :
    (clearStatement span.root).run graph =
      (.ok (span, (graph.surgery span).droppedEdges,
        (graph.surgery span).relinkedEndpoints), graph.cleared span) := by
  have hdoomed (id : UInt64) :
      (Std.TreeSet.ofList (graph.idsBetween span.base span.stop)).contains id =
        (graph.idsBetween span.base span.stop).contains id :=
    Std.TreeSet.contains_ofList
  have hlook : (Editing.look fun graph => graph.locate span.root).run graph =
      (.ok span, graph) := by
    rw [run_look, hlocate]
  have hget : (get : Editing ArenaGraph).run graph = (.ok graph, graph) := rfl
  have hretain : (retainEdges fun edge => !edge.isInside
        (graph.idsBetween span.base span.stop)).run graph =
      (.ok (graph.edges.length - (graph.keptEdges span).length),
        { graph with edges := graph.keptEdges span }) :=
    run_retainEdges _ graph
  rw [clearStatement, run_bind_of_ok hlook, run_bind_of_ok hget]
  dsimp only
  simp only [hdoomed]
  change (retainEdges (fun edge => !edge.isInside
    (graph.idsBetween span.base span.stop)) >>= _ : Editing _).run graph = _
  rw [run_bind_of_ok hretain, run_bind_of_ok (run_relinkEdges hdoomed ..)]
  exact run_bind_of_ok (run_removeRange ..)

section

variable {graph : ArenaGraph} (hgraph : graph.Consistent) {span : Span}
  (hspan : graph.toGraph.IsStatement span.root span)
include hgraph hspan

theorem Consistent.order_base : graph.order[span.base]? = some span.root := by
  rw [← hgraph.position?_eq_some_iff, ← hgraph.position?_toGraph]
  exact hspan.position?_eq

/-- The ids of a statement are its root and the ids that go. -/
theorem Consistent.idsBetween_base :
    graph.idsBetween span.base span.stop =
      span.root :: graph.idsBetween (span.base + 1) span.stop := by
  have hbase := hgraph.order_base hspan
  have hstop := hspan.base_add_two_le
  have htake : (graph.order.take span.stop)[span.base]? = some span.root := by
    rw [List.getElem?_take_of_lt (by omega), hbase]
  obtain ⟨hlt, hroot⟩ := List.getElem?_eq_some_iff.mp htake
  rw [idsBetween, List.drop_eq_getElem_cons hlt, hroot]
  rfl

theorem Consistent.nodup_blocks :
    (graph.order.take (span.base + 1) ++
      (graph.idsBetween (span.base + 1) span.stop ++
        graph.order.drop span.stop)).Nodup := by
  rw [idsBetween, take_append_between graph.order
    (by have := hspan.base_add_two_le; omega)]
  exact hgraph.nodup_order

/-- What stays in the order is what was in it and does not go. -/
theorem Consistent.mem_order_contracted (id : UInt64) :
    id ∈ (graph.contracted span).order ↔
      id ∈ graph.order ∧ id ∉ graph.idsBetween (span.base + 1) span.stop := by
  have hblocks := hgraph.nodup_blocks hspan
  have hstop : span.base + 1 ≤ span.stop := by
    have := hspan.base_add_two_le
    omega
  have horder := take_append_between graph.order hstop
  rw [← idsBetween] at horder
  rw [List.nodup_append, List.nodup_append] at hblocks
  obtain ⟨_, ⟨_, _, hdrop⟩, htake⟩ := hblocks
  conv_rhs => rw [← horder]
  simp only [contracted, List.mem_append]
  constructor
  · rintro (hid | hid)
    · exact ⟨Or.inl hid, fun hgone => htake id hid id (List.mem_append_left _ hgone) rfl⟩
    · exact ⟨Or.inr (Or.inr hid), fun hgone => hdrop id hgone id hid rfl⟩
  · rintro ⟨hid | hid | hid, hgone⟩
    · exact Or.inl hid
    · exact absurd hid hgone
    · exact Or.inr hid

theorem Consistent.root_not_mem_removed :
    span.root ∉ graph.idsBetween (span.base + 1) span.stop := by
  have hids : (graph.idsBetween span.base span.stop).Nodup :=
    (hgraph.nodup_order.sublist (List.take_sublist _ _)).sublist (List.drop_sublist _ _)
  rw [hgraph.idsBetween_base hspan] at hids
  exact (List.nodup_cons.mp hids).1

/-- What stays in the arena: the root as the sentinel, other nodes as they are. -/
theorem Consistent.node?_contracted (id : UInt64)
    (hid : id ∈ (graph.contracted span).order) :
    (graph.contracted span).node? id = some ((graph.nodeOf id).seal span) := by
  obtain ⟨hold, hstays⟩ := (hgraph.mem_order_contracted hspan id).mp hid
  have hnode := hgraph.node?_eq_some hold
  have hkey := hgraph.id_nodeOf hold
  rw [node?] at hnode
  simp only [node?, contracted, Std.ExtTreeMap.getElem?_modify,
    getElem?_foldl_erase, Node.seal, hkey]
  by_cases hroot : span.root = id
  · subst hroot
    simp [hgraph.root_not_mem_removed hspan, hnode, hkey]
  · have hne : compare span.root id ≠ .eq := fun h =>
      hroot (Std.LawfulEqOrd.eq_of_compare h)
    rw [if_neg hne, if_neg hstays, if_neg (Ne.symm hroot), hnode]

theorem Consistent.mem_contracted (id : UInt64) :
    id ∈ (graph.contracted span).arena ↔
      id ∈ graph.arena ∧ id ∉ graph.idsBetween (span.base + 1) span.stop := by
  rw [← Std.ExtTreeMap.isSome_getElem?_iff_mem,
    ← Std.ExtTreeMap.isSome_getElem?_iff_mem]
  simp only [contracted, Std.ExtTreeMap.getElem?_modify, getElem?_foldl_erase]
  by_cases hroot : compare span.root id = .eq
  · rw [← Std.LawfulEqOrd.eq_of_compare hroot]
    simp [hgraph.root_not_mem_removed hspan]
  · rw [if_neg hroot]
    split <;> simp [*]

/-- A relinked edge ends at nodes that stay. -/
theorem Consistent.relinked_mem {id : UInt64} (hid : id ∈ graph.arena) :
    (if (graph.idsBetween span.base span.stop).contains id then span.root
      else id) ∈ (graph.contracted span).arena := by
  rw [hgraph.mem_contracted hspan]
  split
  · refine ⟨?_, hgraph.root_not_mem_removed hspan⟩
    rw [← hgraph.mem_order_iff]
    exact List.mem_of_getElem? (hgraph.order_base hspan)
  · next hout =>
      refine ⟨hid, fun hgone => hout ?_⟩
      rw [hgraph.idsBetween_base hspan, List.contains_iff_mem]
      exact List.mem_cons_of_mem _ hgone

theorem Consistent.contracted : (graph.contracted span).Consistent where
  nodup_order := by
    refine (hgraph.nodup_blocks hspan).sublist ?_
    exact List.Sublist.append_left (List.sublist_append_right _ _) _
  mem_order_iff id := by
    rw [hgraph.mem_order_contracted hspan, hgraph.mem_contracted hspan,
      hgraph.mem_order_iff]
  id_eq_key id node hnode := by
    have hmem := (hgraph.mem_contracted hspan id).mp
      (Std.ExtTreeMap.isSome_getElem?_iff_mem.mp (hnode ▸ rfl))
    rw [← hgraph.mem_order_iff] at hmem
    have hstored := hgraph.node?_contracted hspan id
      ((hgraph.mem_order_contracted hspan id).mpr hmem)
    rw [node?, hnode] at hstored
    injection hstored with hstored
    rw [hstored, Node.id_seal]
    exact hgraph.id_nodeOf hmem.1
  source_mem edge hedge := by
    obtain ⟨old, hold, rfl⟩ := List.mem_map.mp hedge
    exact hgraph.relinked_mem hspan
      (hgraph.source_mem old (List.mem_of_mem_filter hold))
  target_mem edge hedge := by
    obtain ⟨old, hold, rfl⟩ := List.mem_map.mp hedge
    exact hgraph.relinked_mem hspan
      (hgraph.target_mem old (List.mem_of_mem_filter hold))

omit hspan in
theorem Consistent.ids_spanNodes :
    (graph.toGraph.spanNodes span).map Node.id =
      graph.idsBetween span.base span.stop := by
  rw [Graph.spanNodes, List.map_drop, List.map_take, idsBetween]
  rw [← hgraph.ids_toGraph]
  rfl

/-- The flat form is contracted as well. -/
theorem Consistent.toGraph_contracted :
    (graph.contracted span).toGraph = graph.toGraph.contract span := by
  have hnodes : (graph.contracted span).nodes =
      (graph.nodes.take (span.base + 1) ++ graph.nodes.drop span.stop).map
        (Node.seal span) := by
    rw [hgraph.nodes_eq_map, ← List.map_take, ← List.map_drop,
      ← List.map_append, List.map_map, nodes, ← List.filterMap_eq_map]
    exact List.filterMap_congr fun id hid => hgraph.node?_contracted hspan id hid
  rw [Graph.contract, hgraph.ids_spanNodes, toGraph, hnodes]
  rfl

/-- The root of a statement is still there when its other nodes are gone. -/
theorem Consistent.root_mem_cleared : span.root ∈ (graph.cleared span).arena := by
  rw [cleared, ← Std.ExtTreeMap.isSome_getElem?_iff_mem, getElem?_foldl_erase,
    if_neg (hgraph.root_not_mem_removed hspan),
    Std.ExtTreeMap.isSome_getElem?_iff_mem, ← hgraph.mem_order_iff]
  exact List.mem_of_getElem? (hgraph.order_base hspan)

/-- An excision of a located statement is done to the end. -/
theorem Consistent.run_excise
    (hlocate : graph.locate span.root = .ok span) :
    (excise span.root).run graph =
      (.ok (graph.surgery span), (graph.contracted span).sanitized) := by
  rw [excise_eq_bind, run_bind_of_ok (run_clearStatement hlocate), finishExcision,
    run_bind_of_ok (run_sealRoot (hgraph.root_mem_cleared hspan))]
  exact run_bind_of_ok (hgraph.contracted hspan).run_sanitize

end

/-- Where the flat form can be excised, the working graph is excised alike. -/
theorem Consistent.run_excise_of_ok {graph : ArenaGraph}
    (hgraph : graph.Consistent) {root : UInt64} {excision : Excision}
    (hexcise : graph.toGraph.excise root = .ok excision) :
    ∃ after : ArenaGraph,
      (excise root).run graph = (.ok excision.surgery, after) ∧
        after.Consistent ∧ after.toGraph = excision.graph := by
  rw [Graph.excise] at hexcise
  cases hlocate : graph.toGraph.locate root with
  | error fault =>
      rw [hlocate] at hexcise
      cases hexcise
  | ok span =>
      rw [hlocate] at hexcise
      injection hexcise with hexcise
      have hspan := Graph.isStatement_of_locate hlocate
      have hroot := hspan.root_eq
      subst hroot
      rw [hgraph.locate_toGraph] at hlocate
      refine ⟨(graph.contracted span).sanitized, ?_,
        (hgraph.contracted hspan).sanitized, ?_⟩
      · rw [hgraph.run_excise hspan hlocate, ← hexcise, Excision.surgery,
          hgraph.ids_spanNodes, surgery, hgraph.toGraph_contracted hspan]
        rfl
      · rw [toGraph_sanitized, hgraph.toGraph_contracted hspan, ← hexcise]

/-- Where the flat form cannot be excised, nothing is changed. -/
theorem Consistent.run_excise_of_error {graph : ArenaGraph}
    (hgraph : graph.Consistent) {root : UInt64} {fault : Fault}
    (hexcise : graph.toGraph.excise root = .error fault) :
    (excise root).run graph = (.error fault, graph) := by
  rw [Graph.excise, hgraph.locate_toGraph] at hexcise
  cases hlocate : graph.locate root with
  | ok span =>
      rw [hlocate] at hexcise
      cases hexcise
  | error cause =>
      rw [hlocate] at hexcise
      injection hexcise with hcause
      have hlook : (Editing.look fun graph => graph.locate root).run graph =
          (.error fault, graph) := by
        rw [run_look, hlocate, hcause]
      rw [excise, run_bind_of_error hlook]

end ArenaGraph

end LogCorpus
