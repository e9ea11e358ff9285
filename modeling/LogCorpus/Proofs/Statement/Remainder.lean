/-
What is left of a flat graph.

An excision succeeds wherever its statement is located.  It leaves the nodes in
front of the statement and behind it, with the sentinel between the two and every
level access blank, and what it leaves is well formed.
-/
import LogCorpus.Proofs.Statement.Contraction

namespace LogCorpus

namespace Graph

/-- A well-formed graph has a working form. -/
theorem WellFormed.exists_working {graph : Graph} (hgraph : graph.WellFormed) :
    ∃ working : ArenaGraph, working.Consistent ∧ working.toGraph = graph := by
  have hflat := ArenaGraph.ofParts_toGraph graph.sourceFile graph.nodes graph.edges
  rw [ofParts, hgraph.check_eq_ok] at hflat
  cases hparts : ArenaGraph.ofParts graph.sourceFile graph.nodes graph.edges with
  | error fault =>
      rw [hparts] at hflat
      cases hflat
  | ok working =>
      rw [hparts] at hflat
      injection hflat with hsame
      exact ⟨working, ArenaGraph.consistent_of_ofParts hparts, hsame⟩

/-- What an excision leaves is well formed. -/
theorem WellFormed.of_excise {graph : Graph} (hgraph : graph.WellFormed)
    {root : UInt64} {excision : Excision} (hexcise : graph.excise root = .ok excision) :
    excision.graph.WellFormed := by
  obtain ⟨working, hworking, rfl⟩ := hgraph.exists_working
  obtain ⟨after, _, hafter, hflat⟩ := hworking.run_excise_of_ok hexcise
  exact hflat ▸ hafter.wellFormed

theorem exists_excise_eq_ok {graph : Graph} {root : UInt64} {span : Span}
    (hlocate : graph.locate root = .ok span) :
    ∃ excision, graph.excise root = .ok excision ∧ excision.span = span ∧
      excision.graph = (graph.contract span).sanitize := by
  rw [excise, hlocate]
  exact ⟨_, rfl, rfl, rfl⟩

/-- An excision that succeeds has located its statement and contracted it. -/
theorem isStatement_of_excise {graph : Graph} {root : UInt64} {excision : Excision}
    (hexcise : graph.excise root = .ok excision) :
    graph.IsStatement root excision.span ∧
      excision.graph = (graph.contract excision.span).sanitize := by
  obtain ⟨span, hlocate, hdone⟩ := exists_of_bind_eq_ok hexcise
  rw [← Except.ok.inj hdone]
  exact ⟨isStatement_of_locate hlocate, rfl⟩

/-- The ids that an excision leaves. -/
theorem ids_excised (graph : Graph) (span : Span) :
    (graph.contract span).sanitize.ids =
      graph.ids.take (span.base + 1) ++ graph.ids.drop span.stop := by
  have hid : Node.id ∘ Node.sanitize ∘ Node.seal span = Node.id :=
    funext fun node => (Node.id_sanitize _).trans (Node.id_seal span node)
  simp only [sanitize, contract, ids, List.map_map, hid, List.map_append,
    List.map_take, List.map_drop]

section

variable {graph : Graph} (hgraph : graph.WellFormed) {root : UInt64}
include hgraph

/-- No other place holds the id of a node. -/
theorem WellFormed.place_eq {place other : Nat} {node twin : Node}
    (hnode : graph.nodes[place]? = some node)
    (htwin : graph.nodes[other]? = some twin) (hid : node.id = twin.id) :
    place = other := by
  have hplace : graph.ids[place]? = some node.id := by
    rw [ids, List.getElem?_map, hnode]
    rfl
  have hother : graph.ids[other]? = some twin.id := by
    rw [ids, List.getElem?_map, htwin]
    rfl
  exact (List.getElem?_inj (List.getElem?_eq_some_iff.mp hplace).1
    hgraph.nodup_ids).mp (by rw [hplace, hother, hid])

theorem WellFormed.position?_eq_some_iff {place : Nat} :
    graph.position? root = some place ↔
      ∃ node, graph.nodes[place]? = some node ∧ node.id = root := by
  rw [position?, List.findIdx?_eq_some_iff_getElem]
  constructor
  · rintro ⟨hplace, hid, _⟩
    exact ⟨_, List.getElem?_eq_getElem hplace, eq_of_beq hid⟩
  · rintro ⟨node, hnode, rfl⟩
    obtain ⟨hplace, hget⟩ := List.getElem?_eq_some_iff.mp hnode
    refine ⟨hplace, by rw [hget]; exact beq_self_eq_true _, ?_⟩
    intro other hother hsame
    have hlt := Nat.lt_trans hother hplace
    have heq := hgraph.place_eq hnode (List.getElem?_eq_getElem hlt)
      (eq_of_beq hsame).symm
    omega

/-- None of the nodes of a statement but its root is left. -/
theorem WellFormed.not_mem_ids_excised {span : Span} {place : Nat} {node : Node}
    (hbase : span.base < place) (hstop : place < span.stop)
    (hnode : graph.nodes[place]? = some node) :
    node.id ∉ (graph.contract span).sanitize.ids := by
  rw [ids_excised, ids, ← List.map_take, ← List.map_drop, ← List.map_append,
    List.mem_map]
  rintro ⟨other, hother, hid⟩
  rcases List.mem_append.mp hother with hfront | hback
  · obtain ⟨front, hfront, hget⟩ := List.mem_take_iff_getElem.mp hfront
    have hplace := hgraph.place_eq (List.getElem?_eq_some_iff.mpr ⟨by omega, hget⟩)
      hnode hid
    omega
  · obtain ⟨back, hback, hget⟩ := List.mem_drop_iff_getElem.mp hback
    have hplace := hgraph.place_eq (List.getElem?_eq_some_iff.mpr ⟨_, hget⟩) hnode hid
    omega

end

section

variable {graph : Graph} (hgraph : graph.WellFormed) {root : UInt64} {span : Span}
  (hspan : graph.IsStatement root span)
include hgraph hspan

/-- Sealing keeps the nodes outside a statement. -/
theorem WellFormed.map_seal_of_ne {places : List Node}
    (hplaces : ∀ node ∈ places, ∃ place, place ≠ span.base ∧
      graph.nodes[place]? = some node) : places.map (Node.seal span) = places := by
  obtain ⟨first, hfirst, hroot⟩ := (hgraph.position?_eq_some_iff).mp hspan.position?_eq
  apply (List.map_congr_left fun node hnode => ?_).trans (List.map_id places)
  obtain ⟨place, hne, hplace⟩ := hplaces node hnode
  apply Node.seal_of_ne
  intro hsame
  exact hne (hgraph.place_eq hplace hfirst
    (hsame.trans (hspan.root_eq.trans hroot.symm)))

/-- The nodes that an excision leaves: those in front of the statement, the
sentinel, and those behind it. -/
theorem WellFormed.nodes_excised :
    ∃ node, graph.nodes[span.base]? = some node ∧ node.id = root ∧
      (graph.contract span).sanitize.nodes =
        (graph.nodes.take span.base).map Node.sanitize ++
          node.seal span :: (graph.nodes.drop span.stop).map Node.sanitize := by
  obtain ⟨node, hnode, hid⟩ := (hgraph.position?_eq_some_iff).mp hspan.position?_eq
  have hbase := hspan.base_add_two_le
  have hroot : node.id = span.root := hid.trans hspan.root_eq.symm
  have hfront : (graph.nodes.take span.base).map (Node.seal span) =
      graph.nodes.take span.base := by
    apply hgraph.map_seal_of_ne hspan
    intro other hother
    obtain ⟨place, hplace, hget⟩ := List.mem_take_iff_getElem.mp hother
    exact ⟨place, by omega, List.getElem?_eq_some_iff.mpr ⟨by omega, hget⟩⟩
  have hback : (graph.nodes.drop span.stop).map (Node.seal span) =
      graph.nodes.drop span.stop := by
    apply hgraph.map_seal_of_ne hspan
    intro other hother
    obtain ⟨place, hplace, hget⟩ := List.mem_drop_iff_getElem.mp hother
    exact ⟨span.stop + place, by omega, List.getElem?_eq_some_iff.mpr ⟨_, hget⟩⟩
  have hsealed : (node.seal span).sanitize = node.seal span :=
    if_neg (by rw [Node.leaks_seal_of_eq hroot]; exact Bool.false_ne_true)
  refine ⟨node, hnode, hid, ?_⟩
  rw [sanitize, contract, List.take_add_one, hnode]
  simp only [List.map_append, hfront, hback, Option.toList_some, List.map_cons,
    hsealed, List.append_assoc, List.cons_append, List.nil_append]

/-- The contents of the nodes that an excision leaves. -/
theorem WellFormed.contents_excised :
    (graph.contract span).sanitize.nodes.map Node.contents =
      (graph.nodes.take span.base).map (fun node => node.sanitize.contents) ++
        "" :: (graph.nodes.drop span.stop).map fun node => node.sanitize.contents := by
  obtain ⟨node, _, hid, hnodes⟩ := hgraph.nodes_excised hspan
  have hsealed : (node.seal span).contents = "" := by
    rw [Node.seal, if_pos (hid.trans hspan.root_eq.symm)]
  rw [hnodes, List.map_append, List.map_cons, hsealed, List.map_map, List.map_map]
  rfl

end

end Graph

end LogCorpus
