/-
Sentinels before and after an excision.

An excision leaves its own sentinel in the place of a statement, and takes away those
that the statement held.  So a graph gains a sentinel only where its statement held
none, and the first sentinel that a learner is pointed to is the new one only where
none stands in front of it.
-/
import LogCorpus.Proofs.Statement.Remainder
import LogCorpus.Proofs.Training.Projection

namespace LogCorpus

/-- Does the node stand for a statement that is gone? -/
def Node.isSentinel (node : Node) : Bool :=
  node.kind = .log

theorem Node.isSentinel_sanitize (node : Node) :
    node.sanitize.isSentinel = node.isSentinel := by
  rw [sanitize]
  split <;> rfl

theorem Node.isSentinel_seal {span : Span} {node : Node} (hroot : node.id = span.root) :
    (node.seal span).isSentinel = true := by
  rw [Node.seal, if_pos hroot]
  rfl

namespace Graph

/-- The number of sentinels. -/
def sentinelCount (graph : Graph) : Nat :=
  graph.nodes.countP Node.isSentinel

theorem countP_map_sanitize (nodes : List Node) :
    (nodes.map Node.sanitize).countP Node.isSentinel = nodes.countP Node.isSentinel := by
  rw [List.countP_map]
  exact List.countP_congr fun node _ => by rw [Function.comp_apply, node.isSentinel_sanitize]

/-- Blanking hides no sentinel and makes none. -/
theorem findIdx?_map_sanitize (nodes : List Node) :
    (nodes.map Node.sanitize).findIdx? Node.isSentinel =
      nodes.findIdx? Node.isSentinel := by
  rw [List.findIdx?_map]
  congr 1
  funext node
  exact node.isSentinel_sanitize

theorem logPlace_eq (graph : Graph) :
    graph.logPlace =
      match graph.nodes.findIdx? Node.isSentinel with
      | some place => (place : Int)
      | none => -1 := rfl

theorem length_take_of_getElem? {nodes : List Node} {place : Nat} {node : Node}
    (hnode : nodes[place]? = some node) : (nodes.take place).length = place :=
  List.length_take_of_le (Nat.le_of_lt (List.getElem?_eq_some_iff.mp hnode).1)

/-- The sentinels in front of a span, in it and behind it. -/
theorem sentinelCount_eq (graph : Graph) {span : Span} (hspan : span.base ≤ span.stop) :
    graph.sentinelCount =
      (graph.nodes.take span.base).countP Node.isSentinel +
        ((graph.spanNodes span).countP Node.isSentinel +
          (graph.nodes.drop span.stop).countP Node.isSentinel) := by
  rw [← List.countP_append, ← List.countP_append, spanNodes,
    take_append_between graph.nodes hspan]
  rfl

section

variable {graph : Graph} (hgraph : graph.WellFormed) {root : UInt64} {span : Span}
  (hspan : graph.IsStatement root span)
include hgraph hspan

/-- What is gained and what is lost. -/
theorem WellFormed.sentinelCount_excised :
    (graph.contract span).sanitize.sentinelCount +
        (graph.spanNodes span).countP Node.isSentinel =
      graph.sentinelCount + 1 := by
  obtain ⟨node, _, hid, hnodes⟩ := hgraph.nodes_excised hspan
  have hsealed := Node.isSentinel_seal (hid.trans hspan.root_eq.symm)
  have hstop : span.base ≤ span.stop :=
    Nat.le_trans (Nat.le_add_right _ 2) hspan.base_add_two_le
  rw [graph.sentinelCount_eq hstop, sentinelCount, hnodes,
    List.countP_append, List.countP_cons, if_pos hsealed, countP_map_sanitize,
    countP_map_sanitize]
  omega

/-- The first sentinel that is left: the first one in front of the statement, or else
that of the statement. -/
theorem WellFormed.logPlace_excised :
    (graph.contract span).sanitize.logPlace =
      match (graph.nodes.take span.base).findIdx? Node.isSentinel with
      | some place => (place : Int)
      | none => span.base := by
  obtain ⟨node, hnode, hid, hnodes⟩ := hgraph.nodes_excised hspan
  have hsealed := Node.isSentinel_seal (hid.trans hspan.root_eq.symm)
  have hlength := length_take_of_getElem? hnode
  have hfirst : (graph.contract span).sanitize.nodes.findIdx? Node.isSentinel =
      ((graph.nodes.take span.base).findIdx? Node.isSentinel).or (some span.base) := by
    rw [hnodes, List.findIdx?_append, findIdx?_map_sanitize, List.findIdx?_cons,
      if_pos hsealed, List.length_map, hlength]
    simp
  rw [logPlace_eq, hfirst]
  cases (graph.nodes.take span.base).findIdx? Node.isSentinel <;> rfl

/-- The new sentinel is the first one where none stands in front of it. -/
theorem WellFormed.logPlace_excised_eq_iff :
    (graph.contract span).sanitize.logPlace = span.base ↔
      ∀ node ∈ graph.nodes.take span.base, node.kind ≠ .log := by
  rw [hgraph.logPlace_excised hspan]
  cases hfront : (graph.nodes.take span.base).findIdx? Node.isSentinel with
  | none =>
      have hnone := List.findIdx?_eq_none_iff.mp hfront
      exact ⟨fun _ node hnode => of_decide_eq_false (hnone node hnode), fun _ => rfl⟩
  | some place =>
      obtain ⟨hbound, hkind, _⟩ := List.findIdx?_eq_some_iff_getElem.mp hfront
      have hlt : place < span.base := by
        rw [List.length_take] at hbound
        omega
      constructor
      · intro heq
        exact absurd (Int.ofNat.inj heq) (Nat.ne_of_lt hlt)
      · intro hnone
        exact absurd (of_decide_eq_true hkind) (hnone _ (List.getElem_mem hbound))

/-- Where a sentinel stands in front of the statement, the first one stays the first
one. -/
theorem WellFormed.logPlace_excised_of_mem {node : Node}
    (hnode : node ∈ graph.nodes.take span.base) (hkind : node.kind = .log) :
    (graph.contract span).sanitize.logPlace = graph.logPlace := by
  have hsome : ((graph.nodes.take span.base).findIdx? Node.isSentinel).isSome := by
    rw [List.findIdx?_isSome, List.any_eq_true]
    exact ⟨node, hnode, decide_eq_true hkind⟩
  obtain ⟨place, hfront⟩ := Option.isSome_iff_exists.mp hsome
  have hfirst : graph.nodes.findIdx? Node.isSentinel = some place := by
    rw [← List.take_append_drop span.base graph.nodes, List.findIdx?_append, hfront]
    rfl
  rw [hgraph.logPlace_excised hspan, logPlace_eq, hfront, hfirst]

/-- The sentinel of the statement stands where the statement started. -/
theorem WellFormed.exists_sentinel_excised :
    ∃ sentinel, (graph.contract span).sanitize.nodes[span.base]? = some sentinel ∧
      sentinel.id = root ∧ sentinel.kind = .log := by
  obtain ⟨node, hnode, hid, hnodes⟩ := hgraph.nodes_excised hspan
  have hlength : ((graph.nodes.take span.base).map Node.sanitize).length = span.base := by
    rw [List.length_map, length_take_of_getElem? hnode]
  refine ⟨node.seal span, ?_, (node.id_seal span).trans hid, ?_⟩
  · rw [hnodes, List.getElem?_append_right (Nat.le_of_eq hlength), hlength, Nat.sub_self]
    rfl
  · exact of_decide_eq_true (Node.isSentinel_seal (hid.trans hspan.root_eq.symm))

end

/-- An excision that succeeds puts its own sentinel where the statement started.  The
sentinels that the statement held are gone, so there is one more than before exactly
where it held none.  The example of what is left, whatever its target, points to the
new sentinel exactly where none stands in front of it; otherwise it points to the one
that was the first before. -/
theorem WellFormed.sentinels_of_excise {graph : Graph} (hgraph : graph.WellFormed)
    {root : UInt64} {excision : Excision} (hexcise : graph.excise root = .ok excision) :
    (∃ sentinel, excision.graph.nodes[excision.span.base]? = some sentinel ∧
        sentinel.id = root ∧ sentinel.kind = .log) ∧
      excision.graph.sentinelCount +
          (graph.spanNodes excision.span).countP Node.isSentinel =
        graph.sentinelCount + 1 ∧
      (excision.graph.sentinelCount = graph.sentinelCount + 1 ↔
        ∀ node ∈ graph.spanNodes excision.span, node.kind ≠ .log) ∧
      ∀ target, ∃ training, excision.graph.project target = .ok training ∧
        (training.logNode = excision.span.base ↔
          ∀ node ∈ graph.nodes.take excision.span.base, node.kind ≠ .log) ∧
        ∀ node ∈ graph.nodes.take excision.span.base, node.kind = .log →
          training.logNode = graph.logPlace := by
  obtain ⟨hspan, hleft⟩ := isStatement_of_excise hexcise
  have hcount := hgraph.sentinelCount_excised hspan
  have hwellFormed := hgraph.of_excise hexcise
  rw [← hleft] at hcount
  refine ⟨?_, hcount, ?_, fun target => ?_⟩
  · rw [hleft]
    exact hgraph.exists_sentinel_excised hspan
  · have hnone : (graph.spanNodes excision.span).countP Node.isSentinel = 0 ↔
        ∀ node ∈ graph.spanNodes excision.span, node.kind ≠ .log := by
      simp only [List.countP_eq_zero, Node.isSentinel, decide_eq_true_iff, Ne]
    rw [← hnone]
    omega
  · obtain ⟨training, hproject, _, hlog⟩ := hwellFormed.exists_project_eq_ok target
    refine ⟨training, hproject, ?_, fun node hnode hkind => ?_⟩
    · rw [hlog, hleft]
      exact hgraph.logPlace_excised_eq_iff hspan
    · rw [hlog, hleft]
      exact hgraph.logPlace_excised_of_mem hspan hnode hkind

/-- A statement without sentinels between two of them: the graph gains a sentinel, and
its example points to the one in front. -/
theorem sentinels_of_excise_between :
    let word (id : UInt64) (kind : NodeKind) (contents : String) : Node :=
      ⟨id, kind, contents, 3, 3, 0, 1⟩
    let graph : Graph :=
      ⟨"A.java", [word 5 .log "", word 2 .token "log", word 9 .token ";",
        word 1 .log ""], [⟨2, 1, .nextToken⟩]⟩
    graph.WellFormed ∧ ∃ excision training, graph.excise 2 = .ok excision ∧
      excision.graph.sentinelCount = 3 ∧
      excision.graph.project (.severity .info) = .ok training ∧ training.logNode = 0 := by
  intro word graph
  have hgraph : graph.WellFormed :=
    ⟨by decide +kernel, by decide +kernel, by decide +kernel⟩
  let excision : Excision :=
    ⟨⟨2, 1, 3, 3, 1⟩, 0, 0, 0, ⟨"A.java", [word 5 .log "", word 2 .log "",
      word 1 .log ""], [⟨2, 1, .nextToken⟩]⟩⟩
  have hexcise : graph.excise 2 = .ok excision := by
    decide +kernel
  obtain ⟨_, _, hgain, hproject⟩ := hgraph.sentinels_of_excise hexcise
  obtain ⟨training, htraining, _, hfront⟩ := hproject (.severity .info)
  refine ⟨hgraph, excision, training, hexcise, ?_, htraining, ?_⟩
  · exact hgain.mpr (by decide +kernel)
  · exact hfront (word 5 .log "") (by decide +kernel) rfl

/-- A statement that holds a sentinel, behind another one: the graph does not gain a
sentinel, and its example does not point to the new one. -/
theorem sentinel_not_gained :
    let word (id : UInt64) (kind : NodeKind) (contents : String) : Node :=
      ⟨id, kind, contents, 0, 0, 0, 0⟩
    let graph : Graph :=
      ⟨"A.java", [word 1 .log "", word 2 .token "log", word 3 .log "",
        word 4 .token ";"], []⟩
    let excision : Excision :=
      ⟨⟨2, 1, 4, 0, 0⟩, 0, 0, 0, ⟨"A.java", [word 1 .log "", word 2 .log ""], []⟩⟩
    graph.WellFormed ∧ graph.excise 2 = .ok excision ∧
      excision.graph.sentinelCount ≠ graph.sentinelCount + 1 ∧
      ¬ ∀ target training, excision.graph.project target = .ok training →
        training.logNode = excision.span.base := by
  intro word graph excision
  have hgraph : graph.WellFormed :=
    ⟨by decide +kernel, by decide +kernel, by decide +kernel⟩
  let training : TrainingExample := ⟨["", ""], [], [], ["info"], 0⟩
  have hproject : excision.graph.project (.severity .info) = .ok training := by
    decide +kernel
  refine ⟨hgraph, by decide +kernel, by decide +kernel, fun hclaim => ?_⟩
  exact absurd (hclaim _ training hproject) (by decide)

end Graph

end LogCorpus
