/-
What an excision leaves.

An excision that succeeds contracts the ids of its span onto the root.  The
contraction is described here field by field, without the steps that lead to it,
and the numbers that the excision reports are read off the graphs before and
after.
-/
import LogCorpus.Proofs.Statement.Surgery

namespace LogCorpus

theorem isLevelAccess_blank : isLevelAccess "" = false := by
  decide +kernel

theorem Node.sanitize_ne_self_iff (node : Node) :
    node.sanitize ≠ node ↔ node.leaks := by
  rw [sanitize]
  by_cases hleaks : node.leaks
  · have hcontents : node.contents ≠ "" := by
      intro hblank
      rw [leaks, hblank, isLevelAccess_blank] at hleaks
      exact absurd hleaks Bool.false_ne_true
    rw [if_pos hleaks]
    exact ⟨fun _ => hleaks, fun _ heq => hcontents (congrArg Node.contents heq).symm⟩
  · rw [if_neg hleaks]
    exact ⟨fun hne => absurd rfl hne, fun h => absurd h hleaks⟩

theorem Node.seal_of_ne {span : Span} {node : Node} (hne : node.id ≠ span.root) :
    node.seal span = node :=
  if_neg hne

theorem Node.leaks_seal_of_eq {span : Span} {node : Node}
    (heq : node.id = span.root) : (node.seal span).leaks = false := by
  rw [Node.seal, if_pos heq, leaks, isLevelAccess_blank]

namespace ArenaGraph

/-- `after` is the contraction of the ids of a span onto its root: what lies
between the root and the stop is gone, edges that were not inside end at the
root where they ended at one of the ids, the root is the sentinel, and of the
other nodes those that hold a level access are blank. -/
structure Contracts (graph : ArenaGraph) (span : Span) (after : ArenaGraph) :
    Prop where
  sourceFile_eq : after.sourceFile = graph.sourceFile
  order_eq : after.order =
    graph.order.take (span.base + 1) ++ graph.order.drop span.stop
  edges_eq : after.edges =
    (graph.edges.filter fun edge =>
      ¬ (edge.source ∈ graph.idsBetween span.base span.stop ∧
        edge.target ∈ graph.idsBetween span.base span.stop)).map fun edge =>
      { source :=
          if edge.source ∈ graph.idsBetween span.base span.stop then span.root
          else edge.source
        target :=
          if edge.target ∈ graph.idsBetween span.base span.stop then span.root
          else edge.target
        kind := edge.kind }
  node?_root : ∃ root last : Node,
    graph.node? span.root = some root ∧
      graph.nodeAt? (span.stop - 1) = some last ∧
      after.node? span.root = some
        ⟨span.root, .log, "", root.startLine, last.endLine, root.startPosition,
          last.endPosition⟩
  node?_of_ne : ∀ id ∈ after.order, id ≠ span.root → ∃ node : Node,
    graph.node? id = some node ∧
      after.node? id = some
        (if isLevelAccess node.contents then { node with contents := "" } else node)

section

variable {graph : ArenaGraph} (hgraph : graph.Consistent) {span : Span}
  (hspan : graph.toGraph.IsStatement span.root span)
include hgraph hspan

theorem Consistent.root_mem : span.root ∈ graph.order :=
  List.mem_of_getElem? (hgraph.order_base hspan)

theorem Consistent.root_mem_contracted :
    span.root ∈ (graph.contracted span).order :=
  (hgraph.mem_order_contracted hspan span.root).mpr
    ⟨hgraph.root_mem hspan, hgraph.root_not_mem_removed hspan⟩

/-- A node that stays, after the excision. -/
theorem Consistent.node?_excised {id : UInt64}
    (hid : id ∈ (graph.contracted span).order) :
    (graph.contracted span).sanitized.node? id =
      some ((graph.nodeOf id).seal span).sanitize := by
  rw [node?_sanitized, hgraph.node?_contracted hspan id hid]
  rfl

theorem Consistent.contracts :
    graph.Contracts span (graph.contracted span).sanitized where
  sourceFile_eq := rfl
  order_eq := rfl
  edges_eq := by
    change (graph.keptEdges span).map (Edge.relink _ span.root) = _
    rw [keptEdges]
    congr 1
    · funext edge
      simp [Edge.relink]
    · congr 1
      funext edge
      simp [Edge.isInside]
  node?_root := by
    obtain ⟨last, hlast, _, hline, hposition⟩ := hspan.last
    have hroot := hgraph.root_mem hspan
    refine ⟨graph.nodeOf span.root, last, hgraph.node?_eq_some hroot, ?_, ?_⟩
    · rw [hgraph.nodeAt?_eq]
      exact hlast
    · rw [hgraph.node?_excised hspan (hgraph.root_mem_contracted hspan),
        Node.seal, if_pos (hgraph.id_nodeOf hroot), hgraph.id_nodeOf hroot,
        hline, hposition]
      rfl
  node?_of_ne := by
    intro id hid hne
    have hold := ((hgraph.mem_order_contracted hspan id).mp hid).1
    refine ⟨graph.nodeOf id, hgraph.node?_eq_some hold, ?_⟩
    have hother : (graph.nodeOf id).id ≠ span.root := by
      rw [hgraph.id_nodeOf hold]
      exact hne
    rw [hgraph.node?_excised hspan hid, Node.seal_of_ne hother]
    rfl

/-- No edge is left from the root to itself. -/
theorem Consistent.not_loop_contracted {edge : Edge}
    (hedge : edge ∈ (graph.contracted span).edges) :
    ¬ (edge.source = span.root ∧ edge.target = span.root) := by
  obtain ⟨old, hold, rfl⟩ := List.mem_map.mp hedge
  have hroot : span.root ∈ graph.idsBetween span.base span.stop := by
    rw [hgraph.idsBetween_base hspan]
    exact List.mem_cons_self
  have houtside := (List.mem_filter.mp hold).2
  rintro ⟨hsource, htarget⟩
  -- an endpoint that is the root now was among the ids of the span before
  have hinside {id : UInt64}
      (heq : (if (graph.idsBetween span.base span.stop).contains id then
        span.root else id) = span.root) :
      (graph.idsBetween span.base span.stop).contains id = true := by
    by_contra hout
    rw [if_neg hout] at heq
    rw [heq] at hout
    exact hout (List.contains_iff_mem.mpr hroot)
  rw [Edge.isInside, hinside hsource, hinside htarget] at houtside
  exact absurd houtside (by decide)

/-- The blanked nodes are those that changed, apart from the root. -/
theorem Consistent.leakCount_contracted :
    (graph.contracted span).toGraph.leakCount =
      (graph.contracted span).order.countP fun id =>
        id ≠ span.root ∧
          graph.node? id ≠ (graph.contracted span).sanitized.node? id := by
  have hcontracted := hgraph.contracted hspan
  rw [Graph.leakCount, toGraph, hcontracted.nodes_eq_map, List.countP_map]
  apply List.countP_congr
  intro id hid
  have hold := ((hgraph.mem_order_contracted hspan id).mp hid).1
  have hnode : (graph.contracted span).nodeOf id = (graph.nodeOf id).seal span := by
    rw [nodeOf, hgraph.node?_contracted hspan id hid]
    rfl
  rw [Function.comp_apply, hnode, hgraph.node?_excised hspan hid,
    hgraph.node?_eq_some hold]
  rw [decide_eq_true_iff, Ne, Ne, Option.some_inj, eq_comm (a := graph.nodeOf id)]
  by_cases hroot : id = span.root
  · have hsealed := Node.leaks_seal_of_eq ((hgraph.id_nodeOf hold).trans hroot)
    rw [hsealed]
    exact ⟨fun h => absurd h Bool.false_ne_true, fun h => absurd hroot h.1⟩
  · have hother : (graph.nodeOf id).id ≠ span.root := by
      rw [hgraph.id_nodeOf hold]
      exact hroot
    rw [Node.seal_of_ne hother, ← Node.sanitize_ne_self_iff]
    exact ⟨fun hchanged => ⟨hroot, hchanged⟩, fun h => h.2⟩

end

/-- The dropped edges are those inside the span. -/
theorem droppedEdges_surgery (graph : ArenaGraph) (span : Span) :
    (graph.surgery span).droppedEdges = graph.edges.countP fun edge =>
      edge.isInside (graph.idsBetween span.base span.stop) := by
  rw [surgery, keptEdges, ← List.countP_eq_length_filter,
    List.length_eq_countP_add_countP fun edge : Edge =>
      edge.isInside (graph.idsBetween span.base span.stop)]
  simp

/-- The relinked endpoints are those that changed. -/
theorem relinkedEndpoints_surgery (graph : ArenaGraph) (span : Span) :
    (graph.surgery span).relinkedEndpoints =
      ((graph.keptEdges span).zip (graph.contracted span).edges).countP
          (fun pair => pair.1.source ≠ pair.2.source) +
        ((graph.keptEdges span).zip (graph.contracted span).edges).countP
          (fun pair => pair.1.target ≠ pair.2.target) := by
  rw [contracted, countP_zip_map, countP_zip_map]
  simp only [surgery]
  congr 2
  · funext edge
    simp [Edge.movesSource, Edge.relink]
  · funext edge
    simp [Edge.movesTarget, Edge.relink]

/-- An excision that succeeds has located its statement and is done to the
end. -/
theorem Consistent.exists_of_run_excise_eq_ok {graph after : ArenaGraph}
    (hgraph : graph.Consistent) {root : UInt64} {surgery : Surgery}
    (hrun : (excise root).run graph = (.ok surgery, after)) :
    ∃ span, graph.locate root = .ok span ∧
      graph.toGraph.IsStatement root span ∧
      surgery = graph.surgery span ∧
      after = (graph.contracted span).sanitized := by
  cases hlocate : graph.locate root with
  | error fault =>
      have hlook : (Editing.look fun graph => graph.locate root).run graph =
          (.error fault, graph) := by
        rw [run_look, hlocate]
      rw [excise, run_bind_of_error hlook] at hrun
      cases hrun
  | ok span =>
      have hspan := Graph.isStatement_of_locate
        ((hgraph.locate_toGraph root).trans hlocate)
      have hroot := hspan.root_eq
      subst hroot
      rw [hgraph.run_excise hspan hlocate] at hrun
      injection hrun with houtcome hafter
      injection houtcome with hsurgery
      exact ⟨span, rfl, hspan, hsurgery.symm, hafter.symm⟩

/-- An excision that succeeds contracts the ids of its span onto the root.  No
edge is left from the root to itself, and the numbers count the edges that went,
the endpoints that changed and the other nodes that changed. -/
theorem excise_contracts_span {graph after : ArenaGraph}
    (hgraph : graph.Consistent) {root : UInt64} {surgery : Surgery}
    (hrun : (excise root).run graph = (.ok surgery, after)) :
    let span := surgery.span
    let ids := graph.idsBetween span.base span.stop
    let kept := graph.edges.filter fun edge =>
      ¬ (edge.source ∈ ids ∧ edge.target ∈ ids)
    (graph.locate root = .ok span ∧ graph.toGraph.IsStatement root span) ∧
      graph.Contracts span after ∧
      after.Consistent ∧
      (∀ edge ∈ after.edges, ¬ (edge.source = root ∧ edge.target = root)) ∧
      surgery.droppedEdges = graph.edges.countP (fun edge =>
        edge.source ∈ ids ∧ edge.target ∈ ids) ∧
      surgery.relinkedEndpoints =
        (kept.zip after.edges).countP (fun pair => pair.1.source ≠ pair.2.source) +
          (kept.zip after.edges).countP (fun pair => pair.1.target ≠ pair.2.target) ∧
      surgery.sanitizedNodes = after.order.countP (fun id =>
        id ≠ root ∧ graph.node? id ≠ after.node? id) ∧
      ∃ excision, graph.toGraph.excise root = .ok excision ∧
        excision.surgery = surgery ∧ excision.graph = after.toGraph := by
  obtain ⟨span, hlocate, hspan, hsurgery, hafter⟩ :=
    hgraph.exists_of_run_excise_eq_ok hrun
  have hroot := hspan.root_eq
  subst hroot
  intro stated ids kept
  have hstated : stated = span := congrArg Surgery.span hsurgery
  have hids : ids = graph.idsBetween span.base span.stop := by
    rw [← hstated]
  have hinside (edge : Edge) :
      decide (edge.source ∈ ids ∧ edge.target ∈ ids) =
        edge.isInside (graph.idsBetween span.base span.stop) := by
    rw [hids, Edge.isInside]
    simp
  have hkept : kept = graph.keptEdges span := by
    apply List.filter_congr
    intro edge _
    rw [decide_not, hinside edge]
  refine ⟨⟨hstated ▸ hlocate, hstated ▸ hspan⟩, ?_, ?_, ?_, ?_, ?_, ?_, ?_⟩
  · rw [hstated, hafter]
    exact hgraph.contracts hspan
  · rw [hafter]
    exact (hgraph.contracted hspan).sanitized
  · intro edge hedge
    rw [hafter] at hedge
    exact hgraph.not_loop_contracted hspan hedge
  · rw [hsurgery, droppedEdges_surgery]
    exact List.countP_congr fun edge _ => by rw [hinside edge]
  · rw [hsurgery, relinkedEndpoints_surgery, hkept, hafter]
    rfl
  · rw [hsurgery, hafter]
    exact hgraph.leakCount_contracted hspan
  · cases hexcise : graph.toGraph.excise span.root with
    | error fault =>
        rw [hgraph.run_excise_of_error hexcise] at hrun
        cases hrun
    | ok excision =>
        obtain ⟨other, hother, _, hflat⟩ := hgraph.run_excise_of_ok hexcise
        rw [hrun] at hother
        injection hother with houtcome heq
        injection houtcome with hsame
        exact ⟨excision, rfl, hsame.symm, by rw [← hflat, heq]⟩

/-- A call between two other nodes is cut out; its edges are of every sort. -/
theorem excise_contracts_span_of_call :
    let word (id : UInt64) (contents : String) : Node :=
      ⟨id, .token, contents, 3, 3, 0, 1⟩
    let edges : List Edge := [⟨1, 3, .nextToken⟩, ⟨2, 3, .astChild⟩,
      ⟨2, 2, .astChild⟩, ⟨4, 5, .nextToken⟩, ⟨1, 5, .astChild⟩, ⟨1, 3, .nextToken⟩]
    let graph : ArenaGraph :=
      ⟨"A.java", .ofList [((1 : UInt64), word 1 "x"), (2, word 2 "log"),
        (3, word 3 "info"), (4, word 4 ";"), (5, word 5 "Level.INFO")],
        [1, 2, 3, 4, 5], edges⟩
    let after : ArenaGraph :=
      ⟨"A.java", .ofList [((1 : UInt64), word 1 "x"),
        (2, ⟨2, .log, "", 3, 3, 0, 1⟩), (5, word 5 "")], [1, 2, 5],
        [⟨1, 2, .nextToken⟩, ⟨2, 5, .nextToken⟩, ⟨1, 5, .astChild⟩,
          ⟨1, 2, .nextToken⟩]⟩
    let surgery : Surgery := ⟨⟨2, 1, 4, 3, 1⟩, 2, 3, 1⟩
    graph.Consistent ∧ (excise 2).run graph = (.ok surgery, after) ∧
      graph.Contracts surgery.span after := by
  intro word edges graph after surgery
  have hparts : ofParts "A.java" [word 1 "x", word 2 "log", word 3 "info",
      word 4 ";", word 5 "Level.INFO"] edges = .ok graph := by
    decide +kernel
  have hgraph := consistent_of_ofParts hparts
  have hrun : (excise 2).run graph = (.ok surgery, after) := by
    apply Prod.ext <;> decide +kernel
  obtain ⟨_, hcontracts, _⟩ := excise_contracts_span hgraph hrun
  exact ⟨hgraph, hrun, hcontracts⟩

end ArenaGraph

end LogCorpus
