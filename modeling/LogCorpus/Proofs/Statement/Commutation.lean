/-
Excisions of disjoint statements, in either order.

An excision moves the nodes behind its statement ahead and blanks contents, and it
redirects edges.  None of this has an influence on another statement that shares no node
with it: the other statement is located again, further ahead at most, and with the same
ids.  Both excisions filter the order and the edges, and both act on nodes and on edges
one by one, so either of them may be first.
-/
import LogCorpus.Proofs.Statement.Location
import LogCorpus.Proofs.Statement.Remainder

namespace LogCorpus

namespace Node

theorem endLine_sanitize (node : Node) : node.sanitize.endLine = node.endLine := by
  rw [sanitize]
  split <;> rfl

theorem endPosition_sanitize (node : Node) :
    node.sanitize.endPosition = node.endPosition := by
  rw [sanitize]
  split <;> rfl

/-- No level access ends a statement, and blank contents do not either. -/
theorem endsStatement_sanitize (node : Node) :
    node.sanitize.endsStatement = node.endsStatement := by
  by_cases hleaks : node.leaks
  · have hterminators : ∀ contents ∈ terminators, isLevelAccess contents = false := by
      decide +kernel
    have hnot : node.endsStatement = false := by
      rw [endsStatement, isTerminator, ← Bool.not_eq_true, List.contains_iff_mem]
      intro hends
      rw [leaks, hterminators _ hends] at hleaks
      exact Bool.false_ne_true hleaks
    have hblank : isTerminator "" = false := by decide +kernel
    rw [sanitize, if_pos hleaks, hnot]
    exact hblank
  · rw [sanitize, if_neg hleaks]

/-- A node is sealed by the root and the end of a span, wherever the span lies. -/
theorem seal_congr {span other : Span} (hroot : other.root = span.root)
    (hline : other.endLine = span.endLine)
    (hposition : other.endPosition = span.endPosition) (node : Node) :
    node.seal other = node.seal span := by
  rw [Node.seal, Node.seal, hroot, hline, hposition]

theorem seal_comm {first second : Span} (hroots : first.root ≠ second.root)
    (node : Node) : (node.seal first).seal second = (node.seal second).seal first := by
  by_cases hfirst : node.id = first.root
  · have hsecond : node.id ≠ second.root := fun h => hroots (hfirst.symm.trans h)
    rw [seal_of_ne hsecond, seal_of_ne (by rwa [id_seal])]
  · have hsealed : (node.seal second).id ≠ first.root := by rwa [id_seal]
    rw [seal_of_ne hfirst, seal_of_ne hsealed]

/-- It is enough to blank a level access once the node is sealed. -/
theorem sanitize_seal_sanitize (span : Span) (node : Node) :
    (node.sanitize.seal span).sanitize = (node.seal span).sanitize := by
  by_cases hroot : node.id = span.root
  · have hsame : node.sanitize.seal span = node.seal span := by
      rw [Node.seal, Node.seal, if_pos hroot, if_pos (by rwa [id_sanitize]), sanitize]
      split <;> rfl
    rw [hsame]
  · have hclean : node.sanitize.leaks = false := by
      rw [sanitize]
      split
      · exact isLevelAccess_blank
      · rwa [← Bool.not_eq_true]
    rw [seal_of_ne hroot, seal_of_ne (by rwa [id_sanitize])]
    exact if_neg (by rw [hclean]; exact Bool.false_ne_true)

end Node

namespace Edge

section

variable {ids others : List UInt64} (hdisjoint : ids.Disjoint others)
  {root otherRoot : UInt64} (hroot : root ∈ ids) (hotherRoot : otherRoot ∈ others)
  (edge : Edge)
include hdisjoint hroot

/-- An edge that is moved to a root is inside other ids where it was before. -/
theorem isInside_relink :
    (edge.relink ids root).isInside others = edge.isInside others := by
  have hends (id : UInt64) :
      others.contains (if ids.contains id then root else id) = others.contains id := by
    by_cases hid : id ∈ ids
    · have hout : root ∉ others := hdisjoint hroot
      have hidOut : id ∉ others := hdisjoint hid
      simp [hid, hout, hidOut]
    · simp [hid]
  rw [isInside, isInside, relink, hends, hends]

include hotherRoot

/-- Edges are moved to two roots in either order. -/
theorem relink_comm : (edge.relink ids root).relink others otherRoot =
    (edge.relink others otherRoot).relink ids root := by
  have hout : root ∉ others := hdisjoint hroot
  have hotherOut : otherRoot ∉ ids := fun hid => hdisjoint hid hotherRoot
  have hends (id : UInt64) :
      (if others.contains (if ids.contains id then root else id) then otherRoot
        else if ids.contains id then root else id) =
      if ids.contains (if others.contains id then otherRoot else id) then root
        else if others.contains id then otherRoot else id := by
    by_cases hid : id ∈ ids
    · have hidOut : id ∉ others := hdisjoint hid
      simp [hid, hout, hidOut]
    · by_cases hother : id ∈ others
      · simp [hid, hother, hotherOut]
      · simp [hid, hother]
  exact congrArg₂ (Edge.mk · · edge.kind) (hends edge.source) (hends edge.target)

end

end Edge

/-- The span, so many places further ahead. -/
@[simps]
def Span.advance (span : Span) (places : Nat) : Span :=
  { span with base := span.base - places, stop := span.stop - places }

/-- Neither of two spans reaches into the other. -/
def Span.Apart (span other : Span) : Prop :=
  span.stop ≤ other.base ∨ other.stop ≤ span.base

namespace Graph

/-- What a graph holds at the places of a span, another graph holds so many places
further ahead, with every level access blank. -/
structure HoldsAhead (graph other : Graph) (span : Span) (places : Nat) : Prop where
  places_le : places ≤ span.base
  getElem?_eq : ∀ place, span.base ≤ place → place < span.stop →
    other.nodes[place - places]? = graph.nodes[place]?.map Node.sanitize

section

variable {graph : Graph} (hgraph : graph.WellFormed) {root : UInt64} {span : Span}
include hgraph

/-- A statement that is held further ahead is a statement there. -/
theorem HoldsAhead.isStatement {other : Graph} (hother : other.WellFormed) {places : Nat}
    (hahead : graph.HoldsAhead other span places) (hspan : graph.IsStatement root span) :
    other.IsStatement root (span.advance places) := by
  have hplaces := hahead.places_le
  have hbase := hspan.base_add_two_le
  constructor
  · exact hspan.root_eq
  · obtain ⟨node, hnode, hid⟩ := hgraph.position?_eq_some_iff.mp hspan.position?_eq
    refine hother.position?_eq_some_iff.mpr ⟨node.sanitize, ?_, ?_⟩
    · rw [Span.advance_base, hahead.getElem?_eq _ (Nat.le_refl _) (by omega), hnode]
      rfl
    · rw [Node.id_sanitize, hid]
  · rw [Span.advance_base, Span.advance_stop]
    omega
  · obtain ⟨last, hlast, hends, hline, hposition⟩ := hspan.last
    refine ⟨last.sanitize, ?_, ?_, ?_, ?_⟩
    · have hplace : span.stop - places - 1 = span.stop - 1 - places := by omega
      rw [Span.advance_stop, hplace, hahead.getElem?_eq _ (by omega) (by omega), hlast]
      rfl
    · rw [Node.endsStatement_sanitize, hends]
    · rw [Node.endLine_sanitize]
      exact hline
    · rw [Node.endPosition_sanitize]
      exact hposition
  · intro place node hfirst hlast hnode
    rw [Span.advance_base] at hfirst
    rw [Span.advance_stop] at hlast
    have hheld := hahead.getElem?_eq (place + places) (by omega) (by omega)
    rw [Nat.add_sub_cancel, hnode] at hheld
    obtain ⟨old, hold, rfl⟩ := Option.map_eq_some_iff.mp hheld.symm
    rw [Node.endsStatement_sanitize]
    exact hspan.inner (place + places) old (by omega) (by omega) hold

/-- What is apart from a statement is held further ahead when the statement is gone, or
where it was. -/
theorem WellFormed.exists_holdsAhead (hspan : graph.IsStatement root span) {other : Span}
    (hapart : span.Apart other) :
    ∃ places, graph.HoldsAhead (graph.contract span).sanitize other places := by
  obtain ⟨node, _, _, hnodes⟩ := hgraph.nodes_excised hspan
  have hbase := hspan.base_add_two_le
  have hstop := hspan.stop_le
  have hfront : ((graph.nodes.take span.base).map Node.sanitize).length = span.base := by
    rw [List.length_map, List.length_take]
    omega
  rcases hapart with hbehind | hahead
  · refine ⟨span.stop - span.base - 1, by omega, fun place hplace _ => ?_⟩
    have hback : place - (span.stop - span.base - 1) - span.base =
        place - span.stop + 1 := by
      omega
    rw [hnodes, List.getElem?_append_right (by omega), hfront, hback,
      List.getElem?_cons_succ, List.getElem?_map, List.getElem?_drop,
      Nat.add_sub_cancel' (by omega)]
  · refine ⟨0, Nat.zero_le _, fun place _ hplace => ?_⟩
    rw [hnodes, Nat.sub_zero, List.getElem?_append_left (by omega), List.getElem?_map,
      List.getElem?_take_of_lt (by omega)]

end

end Graph

namespace ArenaGraph

/-- The graph without the statement that a span covers. -/
def excised (graph : ArenaGraph) (span : Span) : ArenaGraph :=
  (graph.contracted span).sanitized

/-- Another graph has the statement of a span as well: perhaps at other places, but with
the same ids and the same end. -/
structure HasStatement (graph : ArenaGraph) (span : Span) (other : ArenaGraph)
    (moved : Span) : Prop where
  isStatement : other.toGraph.IsStatement moved.root moved
  root_eq : moved.root = span.root
  endLine_eq : moved.endLine = span.endLine
  endPosition_eq : moved.endPosition = span.endPosition
  idsBetween_eq : other.idsBetween moved.base moved.stop =
    graph.idsBetween span.base span.stop

theorem getElem?_idsBetween (graph : ArenaGraph) (first stop place : Nat) :
    (graph.idsBetween first stop)[place]? =
      if first + place < stop then graph.order[first + place]? else none := by
  rw [idsBetween, List.getElem?_drop, List.getElem?_take]

section

variable {graph : ArenaGraph} (hgraph : graph.Consistent) {span : Span}
  (hspan : graph.toGraph.IsStatement span.root span)
include hgraph hspan

theorem Consistent.excised : (graph.excised span).Consistent :=
  (hgraph.contracted hspan).sanitized

theorem Consistent.toGraph_excised :
    (graph.excised span).toGraph = (graph.toGraph.contract span).sanitize := by
  rw [ArenaGraph.excised, toGraph_sanitized, hgraph.toGraph_contracted hspan]

theorem Consistent.root_mem_idsBetween :
    span.root ∈ graph.idsBetween span.base span.stop := by
  rw [hgraph.idsBetween_base hspan]
  exact List.mem_cons_self

/-- Of the ids of a statement only the root is left in the order. -/
theorem Consistent.order_excised : (graph.excised span).order =
    graph.order.filter fun id =>
      id = span.root ∨ id ∉ graph.idsBetween span.base span.stop := by
  have hids := hgraph.idsBetween_base hspan
  have hstays (id : UInt64) (hid : id ∈ (graph.contracted span).order) :
      id = span.root ∨ id ∉ graph.idsBetween span.base span.stop := by
    have hout := ((hgraph.mem_order_contracted hspan id).mp hid).2
    rw [hids, List.mem_cons, not_or]
    by_cases hroot : id = span.root
    · exact Or.inl hroot
    · exact Or.inr ⟨hroot, hout⟩
  have hgoes (id : UInt64) (hid : id ∈ graph.idsBetween (span.base + 1) span.stop) :
      ¬ (id = span.root ∨ id ∉ graph.idsBetween span.base span.stop) := by
    rintro (rfl | hout)
    · exact hgraph.root_not_mem_removed hspan hid
    · rw [hids] at hout
      exact hout (List.mem_cons_of_mem _ hid)
  have hstop : span.base + 1 ≤ span.stop := by
    have := hspan.base_add_two_le
    omega
  have hblocks := take_append_between graph.order hstop
  rw [← idsBetween] at hblocks
  conv_rhs => rw [← hblocks]
  rw [List.filter_append, List.filter_append,
    List.filter_eq_self.mpr fun id hid =>
      decide_eq_true (hstays id (List.mem_append_left _ hid)),
    List.filter_eq_nil_iff.mpr fun id hid hkept => hgoes id hid (of_decide_eq_true hkept),
    List.filter_eq_self.mpr fun id hid =>
      decide_eq_true (hstays id (List.mem_append_right _ hid))]
  rfl

end

section

variable {graph : ArenaGraph} (hgraph : graph.Consistent) {first second : Span}
  (hfirst : graph.toGraph.IsStatement first.root first)
  (hsecond : graph.toGraph.IsStatement second.root second)
  (hdisjoint : (graph.idsBetween first.base first.stop).Disjoint
    (graph.idsBetween second.base second.stop))
include hgraph hfirst hsecond hdisjoint

theorem Consistent.roots_ne : first.root ≠ second.root := fun hroot =>
  hdisjoint (hgraph.root_mem_idsBetween hfirst)
    (hroot ▸ hgraph.root_mem_idsBetween hsecond)

/-- Statements that share no node are apart. -/
theorem Consistent.apart : first.Apart second := by
  by_contra hmeet
  rw [Span.Apart, not_or] at hmeet
  -- the root that is further behind lies in both
  rcases Nat.le_total first.base second.base with hle | hle
  · have hroot : second.root ∈ graph.idsBetween first.base first.stop := by
      apply List.mem_of_getElem? (i := second.base - first.base)
      rw [getElem?_idsBetween, if_pos (by omega), Nat.add_sub_cancel' hle]
      exact hgraph.order_base hsecond
    exact hdisjoint hroot (hgraph.root_mem_idsBetween hsecond)
  · have hroot : first.root ∈ graph.idsBetween second.base second.stop := by
      apply List.mem_of_getElem? (i := first.base - second.base)
      rw [getElem?_idsBetween, if_pos (by omega), Nat.add_sub_cancel' hle]
      exact hgraph.order_base hfirst
    exact hdisjoint (hgraph.root_mem_idsBetween hfirst) hroot

/-- A statement is still there when another one is gone. -/
theorem Consistent.exists_hasStatement :
    ∃ moved, graph.HasStatement second (graph.excised first) moved := by
  obtain ⟨places, hahead⟩ := hgraph.wellFormed.exists_holdsAhead hfirst
    (hgraph.apart hfirst hsecond hdisjoint)
  rw [← hgraph.toGraph_excised hfirst] at hahead
  have hleft := hgraph.excised hfirst
  refine ⟨second.advance places, ?_, rfl, rfl, rfl, ?_⟩
  · exact hahead.isStatement hgraph.wellFormed hleft.wellFormed hsecond
  · have hplaces := hahead.places_le
    apply List.ext_getElem?
    intro place
    rw [getElem?_idsBetween, getElem?_idsBetween, Span.advance_base, Span.advance_stop]
    by_cases hplace : second.base + place < second.stop
    · have hsame : second.base - places + place = second.base + place - places := by omega
      rw [if_pos (by omega), if_pos hplace, hsame, ← hleft.ids_toGraph,
        ← hgraph.ids_toGraph, Graph.ids, Graph.ids, List.getElem?_map, List.getElem?_map,
        hahead.getElem?_eq _ (by omega) hplace, Option.map_map]
      congr 1
      exact funext Node.id_sanitize
    · rw [if_neg (by omega), if_neg hplace]

end

section

variable {graph : ArenaGraph} (hgraph : graph.Consistent) {first second moved : Span}
  (hfirst : graph.toGraph.IsStatement first.root first)
  (hmoved : graph.HasStatement second (graph.excised first) moved)
include hgraph hfirst hmoved

theorem Consistent.order_excised_excised :
    ((graph.excised first).excised moved).order =
      (graph.order.filter fun id =>
        id = first.root ∨ id ∉ graph.idsBetween first.base first.stop).filter fun id =>
          id = second.root ∨ id ∉ graph.idsBetween second.base second.stop := by
  rw [(hgraph.excised hfirst).order_excised hmoved.isStatement, hmoved.root_eq,
    hmoved.idsBetween_eq, hgraph.order_excised hfirst]

/-- A node that two excisions leave has been sealed by both, and is blanked once. -/
theorem Consistent.node?_excised_excised {id : UInt64}
    (hid : id ∈ ((graph.excised first).excised moved).order) :
    ((graph.excised first).excised moved).node? id =
      some (((graph.nodeOf id).seal first).seal second).sanitize := by
  have hleft := hgraph.excised hfirst
  have hmiddle : id ∈ (graph.contracted first).order :=
    ((hleft.mem_order_contracted hmoved.isStatement id).mp hid).1
  have hnode : (graph.excised first).nodeOf id =
      ((graph.nodeOf id).seal first).sanitize := by
    rw [nodeOf, ArenaGraph.excised, hgraph.node?_excised hfirst hmiddle]
    rfl
  rw [ArenaGraph.excised, hleft.node?_excised hmoved.isStatement hid, hnode,
    Node.seal_congr hmoved.root_eq hmoved.endLine_eq hmoved.endPosition_eq,
    Node.sanitize_seal_sanitize]

theorem Consistent.edges_excised_excised
    (hdisjoint : (graph.idsBetween first.base first.stop).Disjoint
      (graph.idsBetween second.base second.stop)) :
    ((graph.excised first).excised moved).edges =
      ((graph.edges.filter fun edge =>
        !edge.isInside (graph.idsBetween first.base first.stop)).filter fun edge =>
          !edge.isInside (graph.idsBetween second.base second.stop)).map fun edge =>
        (edge.relink (graph.idsBetween first.base first.stop) first.root).relink
          (graph.idsBetween second.base second.stop) second.root := by
  change ((graph.excised first).keptEdges moved).map (Edge.relink _ moved.root) = _
  rw [keptEdges, hmoved.idsBetween_eq, hmoved.root_eq]
  change (((graph.keptEdges first).map (Edge.relink _ first.root)).filter _).map _ = _
  rw [keptEdges, List.filter_map, List.map_map]
  congr 1
  apply List.filter_congr
  intro edge _
  rw [Function.comp_apply,
    Edge.isInside_relink hdisjoint (hgraph.root_mem_idsBetween hfirst)]

end

/-- Two statements that share no node can go in either order. -/
theorem Consistent.excised_comm {graph : ArenaGraph} (hgraph : graph.Consistent)
    {first second movedFirst movedSecond : Span}
    (hfirst : graph.toGraph.IsStatement first.root first)
    (hsecond : graph.toGraph.IsStatement second.root second)
    (hdisjoint : (graph.idsBetween first.base first.stop).Disjoint
      (graph.idsBetween second.base second.stop))
    (hmovedFirst : graph.HasStatement first (graph.excised second) movedFirst)
    (hmovedSecond : graph.HasStatement second (graph.excised first) movedSecond) :
    (graph.excised first).excised movedSecond =
      (graph.excised second).excised movedFirst := by
  have hroots := hgraph.roots_ne hfirst hsecond hdisjoint
  have horder : ((graph.excised first).excised movedSecond).order =
      ((graph.excised second).excised movedFirst).order := by
    rw [hgraph.order_excised_excised hfirst hmovedSecond,
      hgraph.order_excised_excised hsecond hmovedFirst, List.filter_comm]
  have hnodes : ((graph.excised first).excised movedSecond).nodes =
      ((graph.excised second).excised movedFirst).nodes := by
    rw [nodes, nodes, horder]
    apply List.filterMap_congr
    intro id hid
    rw [hgraph.node?_excised_excised hfirst hmovedSecond (horder ▸ hid),
      hgraph.node?_excised_excised hsecond hmovedFirst hid, Node.seal_comm hroots]
  have hedges : ((graph.excised first).excised movedSecond).edges =
      ((graph.excised second).excised movedFirst).edges := by
    rw [hgraph.edges_excised_excised hfirst hmovedSecond hdisjoint,
      hgraph.edges_excised_excised hsecond hmovedFirst
        (List.disjoint_symm hdisjoint), List.filter_comm]
    apply List.map_congr_left
    intro edge _
    exact Edge.relink_comm hdisjoint (hgraph.root_mem_idsBetween hfirst)
      (hgraph.root_mem_idsBetween hsecond) edge
  apply ((hgraph.excised hfirst).excised hmovedSecond.isStatement).eq_of_toGraph_eq
    ((hgraph.excised hsecond).excised hmovedFirst.isStatement)
  rw [toGraph, toGraph, hnodes, hedges]
  rfl

/-- The excision of a root succeeds, its statement has these ids, and of them only the
root is left in a graph that is consistent again. -/
def LosesStatement (graph : ArenaGraph) (root : UInt64) (ids : List UInt64)
    (after : ArenaGraph) : Prop :=
  ∃ surgery, (excise root).run graph = (.ok surgery, after) ∧
    graph.idsBetween surgery.span.base surgery.span.stop = ids ∧
    (after.order = graph.order.filter fun id => id = root ∨ id ∉ ids) ∧
    after.Consistent

theorem Consistent.losesStatement {graph : ArenaGraph} (hgraph : graph.Consistent)
    {span : Span} (hspan : graph.toGraph.IsStatement span.root span) :
    graph.LosesStatement span.root (graph.idsBetween span.base span.stop)
      (graph.excised span) := by
  have hlocate : graph.locate span.root = .ok span := by
    rw [← hgraph.locate_toGraph, Graph.locate_eq_ok_iff]
    exact hspan
  exact ⟨graph.surgery span, hgraph.run_excise hspan hlocate, rfl,
    hgraph.order_excised hspan, hgraph.excised hspan⟩

/-- Excisions of statements that share no node commute.  Both succeed in either order;
the one that comes second removes the ids that its statement has in the original graph;
and one and the same graph is left. -/
theorem Consistent.excise_comm {graph : ArenaGraph} (hgraph : graph.Consistent)
    {first second : UInt64} {firstSpan secondSpan : Span}
    (hfirst : graph.locate first = .ok firstSpan)
    (hsecond : graph.locate second = .ok secondSpan)
    (hdisjoint : (graph.idsBetween firstSpan.base firstSpan.stop).Disjoint
      (graph.idsBetween secondSpan.base secondSpan.stop)) :
    let firstIds := graph.idsBetween firstSpan.base firstSpan.stop
    let secondIds := graph.idsBetween secondSpan.base secondSpan.stop
    ∃ withoutFirst withoutSecond left : ArenaGraph,
      graph.LosesStatement first firstIds withoutFirst ∧
        withoutFirst.LosesStatement second secondIds left ∧
        graph.LosesStatement second secondIds withoutSecond ∧
        withoutSecond.LosesStatement first firstIds left := by
  intro firstIds secondIds
  have hfirst := Graph.isStatement_of_locate ((hgraph.locate_toGraph first).trans hfirst)
  have hsecond :=
    Graph.isStatement_of_locate ((hgraph.locate_toGraph second).trans hsecond)
  have hfirstRoot := hfirst.root_eq
  have hsecondRoot := hsecond.root_eq
  subst hfirstRoot hsecondRoot
  obtain ⟨movedSecond, hmovedSecond⟩ := hgraph.exists_hasStatement hfirst hsecond hdisjoint
  obtain ⟨movedFirst, hmovedFirst⟩ :=
    hgraph.exists_hasStatement hsecond hfirst (List.disjoint_symm hdisjoint)
  have hcomm := hgraph.excised_comm hfirst hsecond hdisjoint hmovedFirst hmovedSecond
  have hlosesSecond := (hgraph.excised hfirst).losesStatement hmovedSecond.isStatement
  have hlosesFirst := (hgraph.excised hsecond).losesStatement hmovedFirst.isStatement
  rw [hmovedSecond.root_eq, hmovedSecond.idsBetween_eq, hcomm] at hlosesSecond
  rw [hmovedFirst.root_eq, hmovedFirst.idsBetween_eq] at hlosesFirst
  exact ⟨_, _, _, hgraph.losesStatement hfirst, hlosesSecond,
    hgraph.losesStatement hsecond, hlosesFirst⟩

/-- Two calls with edges of every sort between them and the rest. -/
theorem excise_comm_of_calls :
    let word (id : UInt64) (contents : String) : Node :=
      ⟨id, .token, contents, 3, 3, 0, 1⟩
    let text : List Node := [word 1 "x", word 2 "log", word 3 "info", word 4 ";",
      word 5 "Level.INFO", word 6 "log", word 7 "error", word 8 ";", word 9 "y"]
    let graph : ArenaGraph :=
      ⟨"A.java", .ofList (text.map fun node => (node.id, node)),
        [1, 2, 3, 4, 5, 6, 7, 8, 9], [⟨1, 3, .nextToken⟩, ⟨3, 7, .astChild⟩,
          ⟨2, 4, .astChild⟩, ⟨6, 8, .astChild⟩, ⟨8, 9, .nextToken⟩, ⟨5, 1, .lastUse⟩]⟩
    let left : Graph :=
      ⟨"A.java", [word 1 "x", ⟨2, .log, "", 3, 3, 0, 1⟩, word 5 "",
        ⟨6, .log, "", 3, 3, 0, 1⟩, word 9 "y"], [⟨1, 2, .nextToken⟩, ⟨2, 6, .astChild⟩,
          ⟨6, 9, .nextToken⟩, ⟨5, 1, .lastUse⟩]⟩
    graph.Consistent ∧ graph.locate 2 = .ok ⟨2, 1, 4, 3, 1⟩ ∧
      graph.locate 6 = .ok ⟨6, 5, 8, 3, 1⟩ ∧
      (graph.idsBetween 1 4).Disjoint (graph.idsBetween 5 8) ∧
      ((excise 6).run ((excise 2).run graph).2).2.toGraph = left ∧
      ((excise 2).run ((excise 6).run graph).2).2.toGraph = left := by
  intro word text graph left
  have hparts : ofParts "A.java" text graph.edges = .ok graph := by decide +kernel
  have hgraph := consistent_of_ofParts hparts
  have hfirst : graph.locate 2 = .ok ⟨2, 1, 4, 3, 1⟩ := by decide +kernel
  have hsecond : graph.locate 6 = .ok ⟨6, 5, 8, 3, 1⟩ := by decide +kernel
  have hdisjoint : (graph.idsBetween 1 4).Disjoint (graph.idsBetween 5 8) := by
    have hfirstIds : graph.idsBetween 1 4 = [2, 3, 4] := rfl
    have hsecondIds : graph.idsBetween 5 8 = [6, 7, 8] := rfl
    rw [hfirstIds, hsecondIds]
    simp
  have hleft : ((excise 6).run ((excise 2).run graph).2).2.toGraph = left := by
    decide +kernel
  refine ⟨hgraph, hfirst, hsecond, hdisjoint, hleft, ?_⟩
  obtain ⟨_, _, _, ⟨_, hone, _⟩, ⟨_, honeTwo, _⟩, ⟨_, htwo, _⟩, ⟨_, htwoOne, _⟩⟩ :=
    hgraph.excise_comm hfirst hsecond hdisjoint
  rw [htwo, htwoOne, ← hleft, hone, honeTwo]

end ArenaGraph

end LogCorpus
