/-
Rebuilding graphs from their flat form.

A flat form is accepted exactly if its ids are distinct and its edges end at them, and it
is then the flat form of the graph that was built.  What is refused is refused for the
first node whose id has occurred before or, if no id comes twice, for the first edge that
ends at no node.
-/
import LogCorpus.Proofs.Graph.Building

namespace LogCorpus

namespace Graph

/-- Of all nodes whose id an earlier node has, this one comes first. -/
def IsFirstRepeat (flat : Graph) (node : Node) : Prop :=
  ∃ front back, flat.nodes = front ++ node :: back ∧
    (front.map Node.id).Nodup ∧ node.id ∈ front.map Node.id

/-- Of all edges with an endpoint that no node has, this one comes first. -/
def IsFirstDangling (flat : Graph) (edge : Edge) : Prop :=
  ∃ front back, flat.edges = front ++ edge :: back ∧
    (∀ earlier ∈ front, earlier.source ∈ flat.ids ∧ earlier.target ∈ flat.ids) ∧
    ¬ (edge.source ∈ flat.ids ∧ edge.target ∈ flat.ids)

theorem not_nodup_of_repeat {front back : List Node} {node : Node}
    (hid : node.id ∈ front.map Node.id) :
    ¬ ((front ++ node :: back).map Node.id).Nodup := by
  rw [List.map_append, List.nodup_append]
  exact fun hall => hall.2.2 node.id hid node.id List.mem_cons_self rfl

theorem IsFirstRepeat.not_nodup {flat : Graph} {node : Node}
    (hnode : flat.IsFirstRepeat node) : ¬ flat.ids.Nodup := by
  obtain ⟨front, back, hnodes, _, hid⟩ := hnode
  rw [ids, hnodes]
  exact not_nodup_of_repeat hid

/-- Of two such nodes, one would repeat an id in front of the other. -/
theorem IsFirstRepeat.unique {flat : Graph} {node twin : Node}
    (hnode : flat.IsFirstRepeat node) (htwin : flat.IsFirstRepeat twin) : node = twin := by
  obtain ⟨front, back, hnodes, hfront, hid⟩ := hnode
  obtain ⟨other, rest, htwins, hother, htwinId⟩ := htwin
  rcases List.append_eq_append_iff.mp (hnodes.symm.trans htwins) with
    ⟨between, hsame, hrest⟩ | ⟨between, hsame, hrest⟩
  · cases between with
    | nil => exact (List.cons.inj hrest).1
    | cons first more =>
        rw [hsame, ← (List.cons.inj hrest).1] at hother
        exact absurd hother (not_nodup_of_repeat hid)
  · cases between with
    | nil => exact (List.cons.inj hrest).1.symm
    | cons first more =>
        rw [hsame, ← (List.cons.inj hrest).1] at hfront
        exact absurd hfront (not_nodup_of_repeat htwinId)

/-- The search for a repetition, with the nodes that it has passed. -/
theorem repeatOf?_of_passed {flat : Graph} {seen : Std.TreeSet UInt64}
    (passed : List Node) {rest : List Node} (hnodes : flat.nodes = passed ++ rest)
    (hpassed : (passed.map Node.id).Nodup)
    (hseen : Collects (passed.map Node.id) seen) :
    match repeatOf? Node.id seen rest with
    | some node => flat.IsFirstRepeat node
    | none => flat.ids.Nodup := by
  induction rest generalizing passed seen with
  | nil =>
      rw [List.append_nil] at hnodes
      rw [repeatOf?, ids, hnodes]
      exact hpassed
  | cons head tail ih =>
      by_cases hhead : head.id ∈ passed.map Node.id
      · rw [repeatOf?, if_pos (Std.TreeSet.contains_iff_mem.mpr ((hseen _).mpr hhead))]
        exact ⟨passed, tail, hnodes, hpassed, hhead⟩
      · rw [repeatOf?, if_neg fun h =>
          hhead ((hseen _).mp (Std.TreeSet.contains_iff_mem.mp h))]
        apply ih (passed ++ [head])
        · rw [hnodes, List.append_assoc]
          rfl
        · rw [List.map_append, List.map_singleton, ← List.concat_eq_append,
            List.nodup_concat]
          exact ⟨hhead, hpassed⟩
        · rw [List.map_append]
          exact hseen.insert head.id

/-- What the search for a repetition says of all nodes. -/
theorem firstRepeat?_spec (flat : Graph) :
    match firstRepeat? Node.id flat.nodes with
    | some node => flat.IsFirstRepeat node
    | none => flat.ids.Nodup :=
  repeatOf?_of_passed [] rfl List.nodup_nil collects_nil

theorem danglingEdge?_eq_some_iff (flat : Graph) (edge : Edge) :
    flat.danglingEdge? = some edge ↔ flat.IsFirstDangling edge := by
  have hends (other : Edge) :
      (flat.contains other.source && flat.contains other.target) = true ↔
        other.source ∈ flat.ids ∧ other.target ∈ flat.ids := by
    rw [Bool.and_eq_true, contains, contains, List.contains_iff_mem, List.contains_iff_mem]
  rw [danglingEdge?_eq, List.find?_eq_some_iff_append]
  simp only [Bool.not_not, hends, Bool.not_eq_true', ← Bool.not_eq_true]
  constructor
  · rintro ⟨hmissing, front, back, hedges, hfront⟩
    exact ⟨front, back, hedges, hfront, hmissing⟩
  · rintro ⟨front, back, hedges, hfront, hmissing⟩
    exact ⟨hmissing, front, back, hedges, hfront⟩

/-- A flat form is refused for its first repetition or else for its first dangling
edge. -/
theorem check_eq_error_iff (flat : Graph) (fault : Fault) :
    flat.check = .error fault ↔
      (∃ node, flat.IsFirstRepeat node ∧ fault = .duplicateNodeId node.id) ∨
        flat.ids.Nodup ∧ ∃ edge, flat.IsFirstDangling edge ∧
          fault = .danglingEdge edge.source edge.target := by
  have hrepeat := flat.firstRepeat?_spec
  rw [check]
  cases hfirst : firstRepeat? Node.id flat.nodes with
  | some node =>
      rw [hfirst] at hrepeat
      constructor
      · intro hfault
        exact Or.inl ⟨node, hrepeat, (Except.error.inj hfault).symm⟩
      · rintro (⟨twin, htwin, rfl⟩ | ⟨hnodup, _⟩)
        · rw [hrepeat.unique htwin]
        · exact absurd hnodup hrepeat.not_nodup
  | none =>
      rw [hfirst] at hrepeat
      simp only [← danglingEdge?_eq_some_iff]
      cases flat.danglingEdge? with
      | some edge =>
          constructor
          · intro hfault
            exact Or.inr ⟨hrepeat, edge, rfl, (Except.error.inj hfault).symm⟩
          · rintro (⟨twin, htwin, _⟩ | ⟨_, other, hother, rfl⟩)
            · exact absurd hrepeat htwin.not_nodup
            · rw [Option.some.inj hother]
      | none =>
          constructor
          · intro hfault
            cases hfault
          · rintro (⟨twin, htwin, _⟩ | ⟨_, other, hother, _⟩)
            · exact absurd hrepeat htwin.not_nodup
            · cases hother

end Graph

namespace ArenaGraph

/-- A graph is built from a flat form exactly if it is consistent and has that form. -/
theorem ofParts_eq_ok_iff (flat : Graph) (graph : ArenaGraph) :
    ofParts flat.sourceFile flat.nodes flat.edges = .ok graph ↔
      graph.Consistent ∧ graph.toGraph = flat := by
  constructor
  · intro hparts
    have hflat := ofParts_toGraph flat.sourceFile flat.nodes flat.edges
    rw [hparts, Graph.ofParts] at hflat
    obtain ⟨_, _, hsame⟩ := exists_of_map_eq_ok hflat.symm
    exact ⟨consistent_of_ofParts hparts, hsame.symm⟩
  · rintro ⟨hgraph, rfl⟩
    exact hgraph.ofParts_toGraph_eq_ok

/-- Building a graph fails as the check of its flat form fails. -/
theorem ofParts_eq_error_iff (flat : Graph) (fault : Fault) :
    ofParts flat.sourceFile flat.nodes flat.edges = .error fault ↔
      flat.check = .error fault := by
  have hflat : (ofParts flat.sourceFile flat.nodes flat.edges).map toGraph =
      flat.check.map fun _ => flat :=
    ofParts_toGraph flat.sourceFile flat.nodes flat.edges
  cases hparts : ofParts flat.sourceFile flat.nodes flat.edges with
  | ok graph =>
      cases hcheck : flat.check with
      | ok done => exact iff_of_false nofun nofun
      | error cause =>
          rw [hparts, hcheck] at hflat
          cases hflat
  | error cause =>
      cases hcheck : flat.check with
      | ok done =>
          rw [hparts, hcheck] at hflat
          cases hflat
      | error other =>
          rw [hparts, hcheck] at hflat
          rw [Except.error.inj hflat, Except.error.injEq, Except.error.injEq]

theorem exists_ofParts_eq_ok_iff (flat : Graph) :
    (∃ graph, ofParts flat.sourceFile flat.nodes flat.edges = .ok graph) ↔
      flat.WellFormed := by
  constructor
  · rintro ⟨graph, hparts⟩
    obtain ⟨hgraph, rfl⟩ := (ofParts_eq_ok_iff flat graph).mp hparts
    exact hgraph.wellFormed
  · intro hflat
    cases hparts : ofParts flat.sourceFile flat.nodes flat.edges with
    | ok graph => exact ⟨graph, rfl⟩
    | error fault =>
        have hcheck := (ofParts_eq_error_iff flat fault).mp hparts
        rw [hflat.check_eq_ok] at hcheck
        cases hcheck

/-- A flat form is accepted exactly if its ids are distinct and its edges end at them.
The graph that is built is the one consistent graph with this flat form, so rebuilding
undoes flattening and flattening undoes rebuilding.  What is refused is refused for the
first node whose id an earlier one has or, where the ids are distinct, for the first edge
with an endpoint that no node has. -/
theorem rebuilding_inverts_flattening (flat : Graph) :
    let rebuilt := ofParts flat.sourceFile flat.nodes flat.edges
    ((∃ graph, rebuilt = .ok graph) ↔
        flat.ids.Nodup ∧
          ∀ edge ∈ flat.edges, edge.source ∈ flat.ids ∧ edge.target ∈ flat.ids) ∧
      (∀ graph, rebuilt = .ok graph ↔ graph.Consistent ∧ graph.toGraph = flat) ∧
      ∀ fault, rebuilt = .error fault ↔
        (∃ node, flat.IsFirstRepeat node ∧ fault = .duplicateNodeId node.id) ∨
          flat.ids.Nodup ∧ ∃ edge, flat.IsFirstDangling edge ∧
            fault = .danglingEdge edge.source edge.target := by
  refine ⟨(exists_ofParts_eq_ok_iff flat).trans ?_, ofParts_eq_ok_iff flat, fun fault =>
    (ofParts_eq_error_iff flat fault).trans (flat.check_eq_error_iff fault)⟩
  constructor
  · intro hflat
    exact ⟨hflat.nodup_ids, fun edge hedge =>
      ⟨hflat.source_mem edge hedge, hflat.target_mem edge hedge⟩⟩
  · rintro ⟨hids, hends⟩
    exact ⟨hids, fun edge hedge => (hends edge hedge).1,
      fun edge hedge => (hends edge hedge).2⟩

example :
    let word (id : UInt64) : Node := ⟨id, .token, "x", 0, 0, 0, 0⟩
    ofParts "A.java" [word 4, word 9, word 9, word 4] [⟨4, 8, .nextToken⟩] =
      .error (.duplicateNodeId 9) := by
  decide +kernel

end ArenaGraph

end LogCorpus
