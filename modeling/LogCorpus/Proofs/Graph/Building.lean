/-
Building graphs step by step.

Adding a node or an edge to a consistent working graph does to its flat form
what the flat operation does: both succeed and leave a consistent graph, or both
fail and nothing changes.  Adding all nodes and edges of some parts gives the
graph of these parts, or the fault of the first part that does not fit.
-/
import LogCorpus.Proofs.Distinct
import LogCorpus.Proofs.Graph.Arena
import LogCorpus.Proofs.Stateful

namespace LogCorpus

namespace ArenaGraph

/-- An edit did what an operation on the flat form does: both succeeded, and
what is left is consistent and has the new flat form, or both failed alike and
the graph is as it was before. -/
def Refines (outcome : Except Fault α × ArenaGraph) (before : ArenaGraph)
    (flat : Except Fault Graph) : Prop :=
  match outcome with
  | (.ok _, after) => after.Consistent ∧ flat = .ok after.toGraph
  | (.error fault, after) => after = before ∧ flat = .error fault

theorem run_pushNode (node : Node) (graph : ArenaGraph) :
    (pushNode node).run graph =
      if graph.contains node.id then (.error (.duplicateNodeId node.id), graph)
      else (.ok (), { graph with
        order := graph.order ++ [node.id]
        arena := graph.arena.insert node.id node }) := by
  change (ite (graph.contains node.id = true) (throw _) _ : Editing Unit).run
    graph = _
  split <;> rfl

theorem run_pushEdge (edge : Edge) (graph : ArenaGraph) :
    (pushEdge edge).run graph =
      if graph.contains edge.source && graph.contains edge.target then
        (.ok (), { graph with edges := graph.edges ++ [edge] })
      else (.error (.danglingEdge edge.source edge.target), graph) := by
  change (ite ((!graph.contains edge.source || !graph.contains edge.target) =
    true) (throw _) _ : Editing Unit).run graph = _
  cases graph.contains edge.source <;> cases graph.contains edge.target <;> rfl

/-- A new id can be stored with a node of that id. -/
theorem Consistent.insert {graph : ArenaGraph} (hgraph : graph.Consistent)
    {node : Node} (hnew : node.id ∉ graph.arena) :
    ({ graph with
        order := graph.order ++ [node.id]
        arena := graph.arena.insert node.id node } : ArenaGraph).Consistent where
  nodup_order := by
    rw [← List.concat_eq_append, List.nodup_concat]
    exact ⟨fun h => hnew ((hgraph.mem_order_iff _).mp h), hgraph.nodup_order⟩
  mem_order_iff id := by
    simp only [List.mem_append, List.mem_singleton, Std.ExtTreeMap.mem_insert,
      Std.LawfulEqOrd.compare_eq_iff_eq, hgraph.mem_order_iff]
    rw [or_comm, eq_comm]
  id_eq_key id stored hstored := by
    rw [Std.ExtTreeMap.getElem?_insert] at hstored
    split at hstored
    · injection hstored with hnode
      rw [← hnode]
      exact Std.LawfulEqOrd.eq_of_compare ‹_›
    · exact hgraph.id_eq_key id stored hstored
  source_mem edge hedge :=
    Std.ExtTreeMap.mem_insert.mpr (Or.inr (hgraph.source_mem edge hedge))
  target_mem edge hedge :=
    Std.ExtTreeMap.mem_insert.mpr (Or.inr (hgraph.target_mem edge hedge))

theorem nodes_insert {graph : ArenaGraph} {node : Node}
    (hnew : node.id ∉ graph.order) :
    nodes { graph with
        order := graph.order ++ [node.id]
        arena := graph.arena.insert node.id node } = graph.nodes ++ [node] := by
  have hold : graph.order.filterMap
      (fun id => (graph.arena.insert node.id node)[id]?) = graph.nodes := by
    apply List.filterMap_congr
    intro id hid
    have hne : compare node.id id ≠ .eq := fun h =>
      hnew (Std.LawfulEqOrd.eq_of_compare h ▸ hid)
    rw [Std.ExtTreeMap.getElem?_insert, if_neg hne]
    rfl
  have hlast : [node.id].filterMap
      (fun id => (graph.arena.insert node.id node)[id]?) = [node] := by
    simp
  calc (graph.order ++ [node.id]).filterMap
        (fun id => (graph.arena.insert node.id node)[id]?)
      = _ ++ _ := List.filterMap_append
    _ = graph.nodes ++ [node] := by rw [hold, hlast]

theorem pushNode_refines {graph : ArenaGraph} (hgraph : graph.Consistent)
    (node : Node) :
    Refines ((pushNode node).run graph) graph (graph.toGraph.pushNode node) := by
  rw [run_pushNode, Graph.pushNode, hgraph.contains_toGraph]
  by_cases hold : graph.contains node.id
  · rw [if_pos hold, if_pos hold]
    exact ⟨rfl, rfl⟩
  · have hnew : node.id ∉ graph.arena := fun h =>
      hold ((graph.contains_iff_mem _).mpr h)
    rw [if_neg hold, if_neg hold]
    refine ⟨hgraph.insert hnew, ?_⟩
    simp only [toGraph,
      nodes_insert fun h => hnew ((hgraph.mem_order_iff _).mp h)]

theorem pushEdge_refines {graph : ArenaGraph} (hgraph : graph.Consistent)
    (edge : Edge) :
    Refines ((pushEdge edge).run graph) graph (graph.toGraph.pushEdge edge) := by
  rw [run_pushEdge, Graph.pushEdge, hgraph.contains_toGraph,
    hgraph.contains_toGraph]
  by_cases hends : (graph.contains edge.source && graph.contains edge.target) = true
  · rw [if_pos hends, if_pos hends]
    rw [Bool.and_eq_true, contains_iff_mem, contains_iff_mem] at hends
    refine ⟨?_, rfl⟩
    constructor
    · exact hgraph.nodup_order
    · exact hgraph.mem_order_iff
    · exact hgraph.id_eq_key
    · intro other hother
      rcases List.mem_append.mp hother with hother | hother
      · exact hgraph.source_mem other hother
      · exact List.mem_singleton.mp hother ▸ hends.1
    · intro other hother
      rcases List.mem_append.mp hother with hother | hother
      · exact hgraph.target_mem other hother
      · exact List.mem_singleton.mp hother ▸ hends.2
  · rw [if_neg hends, if_neg hends]
    exact ⟨rfl, rfl⟩

/-- Several edits did what operations on the flat form do.  After a failure the
graph may hold what the edits before it have added. -/
def Follows (outcome : Except Fault α × ArenaGraph)
    (flat : Except Fault Graph) : Prop :=
  match outcome with
  | (.ok _, after) => after.Consistent ∧ flat = .ok after.toGraph
  | (.error fault, _) => flat = .error fault

theorem Refines.follows {outcome : Except Fault α × ArenaGraph}
    {before : ArenaGraph} {flat : Except Fault Graph}
    (hrefines : Refines outcome before flat) : Follows outcome flat :=
  match outcome, hrefines with
  | (.ok _, _), h => h
  | (.error _, _), h => h.2

theorem Follows.bind {first : Editing α} {next : α → Editing β}
    {graph : ArenaGraph} {flat : Except Fault Graph}
    {flatNext : Graph → Except Fault Graph}
    (hfirst : Follows (first.run graph) flat)
    (hnext : ∀ value {after : ArenaGraph}, after.Consistent →
      Follows ((next value).run after) (flatNext after.toGraph)) :
    Follows ((first >>= next).run graph) (flat >>= flatNext) := by
  cases hrun : first.run graph with
  | mk outcome after =>
      rw [hrun] at hfirst
      cases outcome with
      | error fault =>
          rw [run_bind_of_error hrun, hfirst]
          rfl
      | ok value =>
          rw [run_bind_of_ok hrun, hfirst.2]
          exact hnext value hfirst.1

/-- Edits for all items of a list, one after the other. -/
theorem follows_forM {push : α → Editing Unit}
    {flat : Graph → α → Except Fault Graph}
    (hpush : ∀ item {graph : ArenaGraph}, graph.Consistent →
      Follows ((push item).run graph) (flat graph.toGraph item))
    (items : List α) {graph : ArenaGraph} (hgraph : graph.Consistent) :
    Follows ((items.forM push).run graph)
      (items.foldlM flat graph.toGraph) := by
  induction items generalizing graph with
  | nil => exact ⟨hgraph, rfl⟩
  | cons item rest ih =>
      rw [List.foldlM_cons]
      exact (hpush item hgraph).bind fun _ _ hafter => ih hafter

/-- Adding the nodes and then the edges of some parts, one by one. -/
theorem ofParts_follows (sourceFile : String) (nodes : List Node)
    (edges : List Edge) :
    match ofParts sourceFile nodes edges with
    | .ok graph =>
        graph.Consistent ∧
          (nodes.foldlM Graph.pushNode (Graph.empty sourceFile) >>=
            edges.foldlM Graph.pushEdge) = .ok graph.toGraph
    | .error fault =>
        (nodes.foldlM Graph.pushNode (Graph.empty sourceFile) >>=
          edges.foldlM Graph.pushEdge) = .error fault := by
  have hnodes := follows_forM
    (fun node _ hgraph => (pushNode_refines hgraph node).follows) nodes
    (consistent_empty sourceFile)
  have hadditions :
      Follows ((nodes.forM pushNode >>= fun _ => edges.forM pushEdge).run
          (empty sourceFile))
        (nodes.foldlM Graph.pushNode (Graph.empty sourceFile) >>=
          edges.foldlM Graph.pushEdge) :=
    hnodes.bind fun _ _ hafter => follows_forM
      (fun edge _ hgraph => (pushEdge_refines hgraph edge).follows) edges hafter
  cases hrun : (nodes.forM pushNode >>= fun _ => edges.forM pushEdge).run
      (empty sourceFile) with
  | mk outcome after =>
      rw [hrun] at hadditions
      cases outcome with
      | ok done =>
          simp only [ofParts, hrun]
          exact hadditions
      | error fault =>
          simp only [ofParts, hrun]
          exact hadditions

theorem consistent_of_ofParts {sourceFile : String} {nodes : List Node}
    {edges : List Edge} {graph : ArenaGraph}
    (hparts : ofParts sourceFile nodes edges = .ok graph) :
    graph.Consistent := by
  have hfollows := ofParts_follows sourceFile nodes edges
  rw [hparts] at hfollows
  exact hfollows.1

end ArenaGraph

namespace Graph

/-- Adding nodes one by one stops at the first whose id is taken. -/
theorem foldlM_pushNode (nodes : List Node) (graph : Graph)
    (seen : Std.TreeSet UInt64) (hseen : Collects graph.ids seen) :
    nodes.foldlM pushNode graph =
      match repeatOf? Node.id seen nodes with
      | some node => .error (.duplicateNodeId node.id)
      | none => .ok { graph with nodes := graph.nodes ++ nodes } := by
  induction nodes generalizing graph seen with
  | nil => simp [repeatOf?, pure, Except.pure]
  | cons node rest ih =>
      have hcontains : graph.contains node.id = seen.contains node.id := by
        rw [Bool.eq_iff_iff, contains, List.contains_iff_mem,
          Std.TreeSet.contains_iff_mem, hseen node.id]
      rw [List.foldlM_cons, pushNode, repeatOf?, hcontains]
      by_cases hold : seen.contains node.id
      · rw [if_pos hold, if_pos hold]
        rfl
      · rw [if_neg hold, if_neg hold]
        have hnode : Collects ((graph.nodes ++ [node]).map Node.id)
            (seen.insert node.id) := by
          rw [List.map_append]
          exact hseen.insert node.id
        have hnext := ih { graph with nodes := graph.nodes ++ [node] } _ hnode
        change rest.foldlM pushNode _ = _
        rw [hnext, List.append_assoc]
        rfl

/-- Adding edges one by one stops at the first with a missing endpoint. -/
theorem foldlM_pushEdge (edges : List Edge) (graph : Graph) :
    edges.foldlM pushEdge graph =
      match edges.find? fun edge =>
        !(graph.contains edge.source && graph.contains edge.target) with
      | some edge => .error (.danglingEdge edge.source edge.target)
      | none => .ok { graph with edges := graph.edges ++ edges } := by
  induction edges generalizing graph with
  | nil => simp [pure, Except.pure]
  | cons edge rest ih =>
      rw [List.foldlM_cons, pushEdge, List.find?_cons]
      cases hends : graph.contains edge.source && graph.contains edge.target with
      | false => rfl
      | true =>
          have hnext := ih { graph with edges := graph.edges ++ [edge] }
          change rest.foldlM pushEdge _ = _
          rw [hnext, List.append_assoc]
          rfl

theorem danglingEdge?_eq (graph : Graph) :
    graph.danglingEdge? = graph.edges.find? fun edge =>
      !(graph.contains edge.source && graph.contains edge.target) := by
  have hcontains (id : UInt64) : graph.idSet.contains id = graph.contains id := by
    rw [idSet, Std.TreeSet.contains_ofList, contains]
  simp only [danglingEdge?, hcontains]

/-- Checking the parts of a graph is adding them one by one. -/
theorem foldlM_push_eq_ofParts (sourceFile : String) (nodes : List Node)
    (edges : List Edge) :
    (nodes.foldlM pushNode (empty sourceFile) >>= edges.foldlM pushEdge) =
      ofParts sourceFile nodes edges := by
  rw [foldlM_pushNode nodes (empty sourceFile) ∅ collects_nil, ofParts, check,
    firstRepeat?]
  cases hrepeat : repeatOf? Node.id ∅ nodes with
  | some node => rfl
  | none =>
      change edges.foldlM pushEdge ⟨sourceFile, nodes, []⟩ = Except.map _
        (match danglingEdge? ⟨sourceFile, nodes, edges⟩ with
          | some edge => _
          | none => _)
      rw [danglingEdge?_eq, foldlM_pushEdge, List.nil_append]
      -- whether an id is known does not depend on the edges
      change _ = Except.map _ (match edges.find? fun edge =>
          !(contains ⟨sourceFile, nodes, []⟩ edge.source &&
            contains ⟨sourceFile, nodes, []⟩ edge.target) with
        | some edge => _
        | none => _)
      split <;> rfl

/-- New nodes with distinct ids hold no repetition. -/
theorem repeatOf?_eq_none {nodes : List Node} (hids : (nodes.map Node.id).Nodup)
    (seen : Std.TreeSet UInt64) (hnew : ∀ node ∈ nodes, node.id ∉ seen) :
    repeatOf? Node.id seen nodes = none := by
  induction nodes generalizing seen with
  | nil => rfl
  | cons head tail ih =>
      rw [List.map_cons, List.nodup_cons] at hids
      have hfresh : ¬ seen.contains head.id = true := by
        rw [Std.TreeSet.contains_iff_mem]
        exact hnew head List.mem_cons_self
      rw [repeatOf?, if_neg hfresh]
      apply ih hids.2
      intro node hnode hmem
      rw [Std.TreeSet.mem_insert] at hmem
      rcases hmem with heq | hmem
      · rw [Std.LawfulEqOrd.eq_of_compare heq] at hids
        exact hids.1 (List.mem_map_of_mem hnode)
      · exact hnew node (List.mem_cons_of_mem head hnode) hmem

theorem WellFormed.check_eq_ok {graph : Graph} (hgraph : graph.WellFormed) :
    graph.check = .ok () := by
  have hrepeat : firstRepeat? Node.id graph.nodes = none :=
    repeatOf?_eq_none hgraph.nodup_ids ∅ fun _ _ => Std.TreeSet.not_mem_emptyc
  have hdangling : graph.danglingEdge? = none := by
    rw [danglingEdge?_eq, List.find?_eq_none]
    intro edge hedge
    simp [contains, hgraph.source_mem edge hedge, hgraph.target_mem edge hedge]
  rw [check, hrepeat, hdangling]

end Graph

/-- A working graph is built from the same parts as its flat form, and the same
parts are refused. -/
theorem ArenaGraph.ofParts_toGraph (sourceFile : String) (nodes : List Node)
    (edges : List Edge) :
    (ofParts sourceFile nodes edges).map toGraph =
      Graph.ofParts sourceFile nodes edges := by
  have hfollows := ofParts_follows sourceFile nodes edges
  rw [Graph.foldlM_push_eq_ofParts] at hfollows
  cases hparts : ofParts sourceFile nodes edges with
  | ok graph => exact (hparts ▸ hfollows).2.symm
  | error fault => exact (hparts ▸ hfollows).symm

/-- A consistent graph is rebuilt from the nodes and edges of its flat form. -/
theorem ArenaGraph.Consistent.ofParts_toGraph_eq_ok {graph : ArenaGraph}
    (hgraph : graph.Consistent) :
    ofParts graph.toGraph.sourceFile graph.toGraph.nodes graph.toGraph.edges =
      .ok graph := by
  have hflat := ofParts_toGraph graph.toGraph.sourceFile graph.toGraph.nodes
    graph.toGraph.edges
  rw [Graph.ofParts, hgraph.wellFormed.check_eq_ok] at hflat
  cases hparts : ofParts graph.toGraph.sourceFile graph.toGraph.nodes
      graph.toGraph.edges with
  | error fault =>
      rw [hparts] at hflat
      cases hflat
  | ok rebuilt =>
      rw [hparts] at hflat
      injection hflat with hsame
      rw [(consistent_of_ofParts hparts).eq_of_toGraph_eq hgraph hsame]

end LogCorpus
