/-
What an excision does not read.

Two graphs may differ in everything inside their statements: in the kinds and the
contents of its nodes, in all coordinates but those at its two ends, and in its
inner edges.  If they are alike otherwise, one and the same graph is left of both,
and so is one and the same training example.
-/
import LogCorpus.Proofs.Statement.Remainder
import LogCorpus.Proofs.Training.Projection

namespace LogCorpus

/-- Where a node starts. -/
def Node.startPoint (node : Node) : UInt32 × UInt32 :=
  (node.startLine, node.startPosition)

/-- Where a node ends. -/
def Node.endPoint (node : Node) : UInt32 × UInt32 :=
  (node.endLine, node.endPosition)

namespace ArenaGraph

/-- The edges without those that have both endpoints among these ids. -/
def edgesOutside (graph : ArenaGraph) (ids : List UInt64) : List Edge :=
  graph.edges.filter fun edge => ¬ (edge.source ∈ ids ∧ edge.target ∈ ids)

/-- Two graphs are alike outside the places from `base` up to, not including,
`stop`, and what lies there starts and ends alike. -/
structure AlikeOutside (graph other : ArenaGraph) (base stop : Nat) : Prop where
  sourceFile_eq : other.sourceFile = graph.sourceFile
  order_eq : other.order = graph.order
  node?_eq : ∀ id ∈ graph.order, id ∉ graph.idsBetween base stop →
    other.node? id = graph.node? id
  startPoint_eq : (other.nodeAt? base).map Node.startPoint =
    (graph.nodeAt? base).map Node.startPoint
  endPoint_eq : (other.nodeAt? (stop - 1)).map Node.endPoint =
    (graph.nodeAt? (stop - 1)).map Node.endPoint
  edgesOutside_eq : other.edgesOutside (other.idsBetween base stop) =
    graph.edgesOutside (graph.idsBetween base stop)

theorem keptEdges_eq_edgesOutside (graph : ArenaGraph) (span : Span) :
    graph.keptEdges span =
      graph.edgesOutside (graph.idsBetween span.base span.stop) := by
  apply List.filter_congr
  intro edge _
  simp [Edge.isInside]

/-- The end of a statement is where its last node ends. -/
theorem Consistent.endPoint_nodeAt? {graph : ArenaGraph} (hgraph : graph.Consistent)
    {root : UInt64} {span : Span} (hspan : graph.toGraph.IsStatement root span) :
    (graph.nodeAt? (span.stop - 1)).map Node.endPoint =
      some (span.endLine, span.endPosition) := by
  obtain ⟨last, hlast, _, hline, hposition⟩ := hspan.last
  have hnode : graph.nodeAt? (span.stop - 1) = some last := by
    rw [hgraph.nodeAt?_eq]
    exact hlast
  simp only [hnode, Option.map_some, Node.endPoint, hline, hposition]

/-- The node that starts a statement is its root. -/
theorem Consistent.nodeAt?_base {graph : ArenaGraph} (hgraph : graph.Consistent)
    {span : Span} (hspan : graph.toGraph.IsStatement span.root span) :
    graph.nodeAt? span.base = some (graph.nodeOf span.root) := by
  rw [nodeAt?, hgraph.order_base hspan]
  exact hgraph.node?_eq_some (hgraph.root_mem hspan)

namespace AlikeOutside

section

variable {graph other : ArenaGraph} {span : Span}
  (halike : graph.AlikeOutside other span.base span.stop)
include halike

theorem idsBetween_eq : other.idsBetween span.base span.stop =
    graph.idsBetween span.base span.stop := by
  rw [idsBetween, idsBetween, halike.order_eq]

theorem keptEdges_eq : other.keptEdges span = graph.keptEdges span := by
  rw [keptEdges_eq_edgesOutside, keptEdges_eq_edgesOutside, halike.edgesOutside_eq]

end

section

variable {graph other : ArenaGraph} (hgraph : graph.Consistent)
  (hother : other.Consistent)
include hgraph hother

/-- Statements of one root at the same places are the same span. -/
theorem span_eq {root : UInt64} {span otherSpan : Span}
    (hspan : graph.toGraph.IsStatement root span)
    (hotherSpan : other.toGraph.IsStatement root otherSpan)
    (hbase : otherSpan.base = span.base) (hstop : otherSpan.stop = span.stop)
    (halike : graph.AlikeOutside other span.base span.stop) : otherSpan = span := by
  have hend : (otherSpan.endLine, otherSpan.endPosition) =
      (span.endLine, span.endPosition) := by
    apply Option.some.inj
    calc some (otherSpan.endLine, otherSpan.endPosition)
        = (other.nodeAt? (otherSpan.stop - 1)).map Node.endPoint :=
          (hother.endPoint_nodeAt? hotherSpan).symm
      _ = (graph.nodeAt? (span.stop - 1)).map Node.endPoint := by
          rw [hstop, halike.endPoint_eq]
      _ = some (span.endLine, span.endPosition) := hgraph.endPoint_nodeAt? hspan
  obtain ⟨hline, hposition⟩ := Prod.mk.inj hend
  have hroot := hotherSpan.root_eq.trans hspan.root_eq.symm
  cases span
  cases otherSpan
  simp_all

variable {span : Span} (hspan : graph.toGraph.IsStatement span.root span)
  (hotherSpan : other.toGraph.IsStatement span.root span)
  (halike : graph.AlikeOutside other span.base span.stop)
include hspan hotherSpan halike

/-- A node that stays is the same in both graphs once the root is sealed. -/
theorem seal_nodeOf_eq {id : UInt64} (hid : id ∈ (graph.contracted span).order) :
    (other.nodeOf id).seal span = (graph.nodeOf id).seal span := by
  obtain ⟨hold, hstays⟩ := (hgraph.mem_order_contracted hspan id).mp hid
  by_cases hroot : id = span.root
  · subst hroot
    have hstart := halike.startPoint_eq
    rw [hother.nodeAt?_base hotherSpan, hgraph.nodeAt?_base hspan] at hstart
    obtain ⟨hline, hposition⟩ := Prod.mk.inj (Option.some.inj hstart)
    have hkey := hgraph.id_nodeOf hold
    have hotherKey := hother.id_nodeOf (halike.order_eq ▸ hold)
    simp only [Node.seal, hkey, hotherKey, hline, hposition, if_true]
  · have houtside : id ∉ graph.idsBetween span.base span.stop := by
      rw [hgraph.idsBetween_base hspan, List.mem_cons, not_or]
      exact ⟨hroot, hstays⟩
    rw [nodeOf, nodeOf, halike.node?_eq id hold houtside]

theorem contracted_eq : other.contracted span = graph.contracted span := by
  have horder : (other.contracted span).order = (graph.contracted span).order := by
    simp only [contracted, halike.order_eq]
  have hnodes : (other.contracted span).nodes = (graph.contracted span).nodes := by
    rw [nodes, nodes, horder]
    apply List.filterMap_congr
    intro id hid
    rw [hgraph.node?_contracted hspan id hid,
      hother.node?_contracted hotherSpan id (horder ▸ hid),
      seal_nodeOf_eq hgraph hother hspan hotherSpan halike hid]
  have hedges : (other.contracted span).edges = (graph.contracted span).edges := by
    simp only [contracted, halike.keptEdges_eq, halike.idsBetween_eq]
  apply (hother.contracted hotherSpan).eq_of_toGraph_eq (hgraph.contracted hspan)
  rw [toGraph, toGraph, hnodes, hedges]
  exact congrArg (Graph.mk · _ _) halike.sourceFile_eq

end

end AlikeOutside

/-- Where a statement is located, the working graph and its flat form are excised
to the same graph. -/
theorem Consistent.exists_excise_eq_ok {graph : ArenaGraph} (hgraph : graph.Consistent)
    {span : Span} (hspan : graph.toGraph.IsStatement span.root span)
    (hlocate : graph.locate span.root = .ok span) :
    ∃ excision, graph.toGraph.excise span.root = .ok excision ∧
      excision.graph = (graph.contracted span).sanitized.toGraph := by
  obtain ⟨excision, hexcise, _, hleft⟩ := Graph.exists_excise_eq_ok
    ((hgraph.locate_toGraph span.root).trans hlocate)
  refine ⟨excision, hexcise, ?_⟩
  rw [hleft, toGraph_sanitized, hgraph.toGraph_contracted hspan]

/-- Nothing inside a statement has an influence on what is left without it.  Two
graphs whose statements lie at the same places and that are alike outside are both
excised, one and the same graph is left of them, and every target gives one and the
same training example.  Of what is counted only the number of the edges that were
dropped may differ. -/
theorem excise_of_alikeOutside {graph other : ArenaGraph} (hgraph : graph.Consistent)
    (hother : other.Consistent) {root : UInt64} {span otherSpan : Span}
    (hlocate : graph.locate root = .ok span)
    (hotherLocate : other.locate root = .ok otherSpan)
    (hbase : otherSpan.base = span.base) (hstop : otherSpan.stop = span.stop)
    (halike : graph.AlikeOutside other span.base span.stop) :
    ∃ (surgery otherSurgery : Surgery) (after : ArenaGraph)
        (excision otherExcision : Excision),
      (excise root).run graph = (.ok surgery, after) ∧
        (excise root).run other = (.ok otherSurgery, after) ∧
        otherSurgery = { surgery with droppedEdges := otherSurgery.droppedEdges } ∧
        graph.toGraph.excise root = .ok excision ∧
        other.toGraph.excise root = .ok otherExcision ∧
        excision.graph = after.toGraph ∧ otherExcision.graph = after.toGraph ∧
        ∀ target, ∃ training, excision.graph.project target = .ok training ∧
          otherExcision.graph.project target = .ok training := by
  have hspan := Graph.isStatement_of_locate ((hgraph.locate_toGraph root).trans hlocate)
  have hotherSpan := Graph.isStatement_of_locate
    ((hother.locate_toGraph root).trans hotherLocate)
  have hsame := halike.span_eq hgraph hother hspan hotherSpan hbase hstop
  have hroot := hspan.root_eq
  subst hsame hroot
  have hcontracted := halike.contracted_eq hgraph hother hspan hotherSpan
  have hkept := halike.keptEdges_eq
  have hids := halike.idsBetween_eq
  obtain ⟨excision, hexcise, hleft⟩ := hgraph.exists_excise_eq_ok hspan hlocate
  obtain ⟨otherExcision, hotherExcise, hotherLeft⟩ :=
    hother.exists_excise_eq_ok hotherSpan hotherLocate
  rw [hcontracted, ← hleft] at hotherLeft
  have hrun := hgraph.run_excise hspan hlocate
  have hotherRun := hother.run_excise hotherSpan hotherLocate
  rw [hcontracted] at hotherRun
  refine ⟨_, _, _, excision, otherExcision, hrun, hotherRun, ?_, hexcise, hotherExcise,
    hleft, hotherLeft.trans hleft, fun target => ?_⟩
  · simp only [surgery, hkept, hids, hcontracted]
  · have hafter := ((hgraph.contracted hspan).sanitized).wellFormed
    rw [hotherLeft, hleft]
    obtain ⟨training, hproject, _⟩ := hafter.exists_project_eq_ok target
    exact ⟨training, hproject, hproject⟩

/-- Two calls of different levels, with different messages and inner edges, leave the
same graph. -/
theorem excise_of_alikeOutside_call :
    let word (id : UInt64) (contents : String) : Node :=
      ⟨id, .token, contents, 3, 3, 0, 1⟩
    let text (level message : String) : List Node :=
      [word 1 "x", word 2 "log", word 3 level, word 4 message, word 5 ";", word 6 "y"]
    let graph : ArenaGraph :=
      ⟨"A.java", .ofList ((text "info" "started").map fun node => (node.id, node)),
        [1, 2, 3, 4, 5, 6], [⟨1, 3, .nextToken⟩, ⟨2, 3, .astChild⟩, ⟨5, 6, .nextToken⟩]⟩
    let other : ArenaGraph :=
      ⟨"A.java", .ofList ((text "error" "no disk").map fun node => (node.id, node)),
        [1, 2, 3, 4, 5, 6], [⟨1, 3, .nextToken⟩, ⟨5, 6, .nextToken⟩, ⟨4, 2, .lastUse⟩]⟩
    let left : ArenaGraph :=
      ⟨"A.java", .ofList [((1 : UInt64), word 1 "x"), (2, ⟨2, .log, "", 3, 3, 0, 1⟩),
        (6, word 6 "y")], [1, 2, 6], [⟨1, 2, .nextToken⟩, ⟨2, 6, .nextToken⟩]⟩
    graph.AlikeOutside other 1 5 ∧
      ((excise 2).run graph).2 = left ∧ ((excise 2).run other).2 = left := by
  intro word text graph other left
  have hparts : ofParts "A.java" (text "info" "started") graph.edges = .ok graph := by
    decide +kernel
  have hotherParts : ofParts "A.java" (text "error" "no disk") other.edges =
      .ok other := by
    decide +kernel
  have hnodes : ([1, 2, 3, 4, 5, 6] : List UInt64).all fun id =>
      id ∈ graph.idsBetween 1 5 ∨ other.node? id = graph.node? id := by
    decide +kernel
  have halike : graph.AlikeOutside other 1 5 := by
    constructor
    case node?_eq =>
      intro id hid houtside
      have hid := List.all_eq_true.mp hnodes id hid
      exact (of_decide_eq_true hid).resolve_left houtside
    all_goals decide +kernel
  obtain ⟨_, _, after, _, _, hrun, hotherRun, _⟩ :=
    excise_of_alikeOutside (consistent_of_ofParts hparts)
      (consistent_of_ofParts hotherParts) (by decide +kernel : graph.locate 2 =
        .ok ⟨2, 1, 5, 3, 1⟩) (by decide +kernel : other.locate 2 = .ok ⟨2, 1, 5, 3, 1⟩)
      rfl rfl halike
  have hleft : ((excise 2).run graph).2 = left := by
    decide +kernel
  refine ⟨halike, hleft, ?_⟩
  rw [hotherRun, ← hleft, hrun]

end ArenaGraph

end LogCorpus
