/-
What is projected.

The sentinel is the first node of kind `log`, and the edges of a kind keep their
order.  Every endpoint of an edge of a well-formed graph has a place, so its
projection cannot fail.  It cannot fail for want of a sentinel either where a
node of kind `log` is left.
-/
import LogCorpus.Proofs.Graph.Arena
import LogCorpus.Proofs.Graph.Kind
import LogCorpus.Proofs.Stateful
import LogCorpus.Training.Projection

namespace LogCorpus

/-! ### The sentinel -/

/-- The place of the first sentinel among nodes, or `-1`. -/
def firstLog (nodes : List Node) : Int :=
  match nodes.findIdx? fun node => node.kind = .log with
  | some place => place
  | none => -1

/-- Where the first sentinel is. -/
theorem firstLog_cases (nodes : List Node) :
    (firstLog nodes = -1 ∧ ∀ node ∈ nodes, node.kind ≠ .log) ∨
      ∃ (place : Nat) (node : Node), firstLog nodes = place ∧
        nodes[place]? = some node ∧ node.kind = .log ∧
        ∀ earlier < place, ∀ other, nodes[earlier]? = some other → other.kind ≠ .log := by
  rw [firstLog]
  cases hfirst : nodes.findIdx? fun node => node.kind = .log with
  | none =>
      rw [List.findIdx?_eq_none_iff] at hfirst
      exact .inl ⟨rfl, fun node hnode => of_decide_eq_false (hfirst node hnode)⟩
  | some place =>
      obtain ⟨hplace, hlog, hearlier⟩ := List.findIdx?_eq_some_iff_getElem.mp hfirst
      refine .inr ⟨place, nodes[place], rfl, List.getElem?_eq_getElem hplace,
        of_decide_eq_true hlog, ?_⟩
      intro earlier hlt other hother
      obtain ⟨_, rfl⟩ := List.getElem?_eq_some_iff.mp hother
      simpa using hearlier earlier hlt

/-! ### Edges by kind -/

/-- The pairs of the edges of a kind, if there are any. -/
def groupOf? (placed : List PlacedEdge) (kind : EdgeKind) : Option (List (Nat × Nat)) :=
  match placed.filter fun edge => edge.kind = kind with
  | [] => none
  | group => some (group.map fun edge => (edge.source, edge.target))

theorem groupOf?_eq_none_iff {placed : List PlacedEdge} {kind : EdgeKind} :
    groupOf? placed kind = none ↔ ∀ edge ∈ placed, edge.kind ≠ kind := by
  have hfilter : groupOf? placed kind = none ↔
      (placed.filter fun edge => edge.kind = kind) = [] := by
    rw [groupOf?]
    cases placed.filter fun edge => edge.kind = kind <;> simp
  rw [hfilter, List.filter_eq_nil_iff]
  simp

theorem getD_groupOf? (placed : List PlacedEdge) (kind : EdgeKind) :
    (groupOf? placed kind).getD [] =
      (placed.filter fun edge => edge.kind = kind).map fun edge =>
        (edge.source, edge.target) := by
  rw [groupOf?]
  cases placed.filter fun edge => edge.kind = kind <;> rfl

theorem groupByKind_eq (placed : List PlacedEdge) :
    Graph.project.groupByKind placed = EdgeKind.all.filterMap fun kind =>
      (groupOf? placed kind).map fun pairs => (kind, pairs) := by
  apply List.filterMap_congr
  intro kind _
  rw [groupOf?]
  cases placed.filter fun edge => edge.kind = kind <;> rfl

theorem byKind_groupByKind (placed : List PlacedEdge) :
    ByKind (Graph.project.groupByKind placed) := by
  rw [groupByKind_eq]
  exact .filterMap_all _

theorem mem_groupByKind {placed : List PlacedEdge} {kind : EdgeKind}
    {pairs : List (Nat × Nat)} :
    (kind, pairs) ∈ Graph.project.groupByKind placed ↔
      groupOf? placed kind = some pairs := by
  rw [groupByKind_eq, ByKind.mem_filterMap_all]

theorem lookup_groupByKind (placed : List PlacedEdge) (kind : EdgeKind) :
    (Graph.project.groupByKind placed).lookup kind = groupOf? placed kind := by
  apply Option.ext
  intro pairs
  rw [(byKind_groupByKind placed).lookup_eq_some_iff, mem_groupByKind]

/-! ### Places -/

namespace Graph

/-- Storing places that are new leaves what was stored before, and the first
place of every other id. -/
theorem foldl_insertIfNew_place (ids : List UInt64) (first : Nat)
    (places : Std.TreeMap UInt64 Nat) (id : UInt64) :
    ((ids.zipIdx first).foldl
        (fun places entry => places.insertIfNew entry.1 entry.2) places)[id]? =
      places[id]?.or ((ids.findIdx? (fun other => other == id)).map (· + first)) := by
  induction ids generalizing first places with
  | nil => simp
  | cons head tail ih =>
      rw [List.zipIdx_cons, List.foldl_cons, ih, List.findIdx?_cons,
        Std.TreeMap.getElem?_insertIfNew]
      by_cases heq : head = id
      · subst heq
        cases hold : places[head]? with
        | none => simp [Std.TreeMap.mem_iff_isSome_getElem?, hold]
        | some place => simp [Std.TreeMap.mem_iff_isSome_getElem?, hold]
      · have hne : compare head id ≠ .eq :=
          fun h => heq (Std.LawfulEqOrd.eq_of_compare h)
        rw [if_neg fun h => hne h.1, if_neg (by simpa using heq)]
        cases tail.findIdx? (fun other => other == id) with
        | none => rfl
        | some place => simp [Nat.add_assoc, Nat.add_comm 1 first]

theorem getElem?_positions (graph : Graph) (id : UInt64) :
    graph.positions[id]? = graph.position? id := by
  rw [positions, foldl_insertIfNew_place, position?, ids, List.findIdx?_map]
  simp [Function.comp_def]

/-- Every id has a place. -/
theorem exists_position?_eq_some {graph : Graph} {id : UInt64}
    (hid : id ∈ graph.ids) : ∃ place, graph.position? id = some place := by
  obtain ⟨node, hnode, rfl⟩ := List.mem_map.mp hid
  rw [← Option.isSome_iff_exists, position?, List.findIdx?_isSome, List.any_eq_true]
  exact ⟨node, hnode, beq_self_eq_true _⟩

/-- An edge with the places of its endpoints. -/
def placeEdge (graph : Graph) (edge : Edge) : PlacedEdge :=
  ⟨edge.kind, (graph.position? edge.source).getD 0,
    (graph.position? edge.target).getD 0⟩

theorem WellFormed.placedEdges_eq_ok {graph : Graph} (hgraph : graph.WellFormed) :
    graph.placedEdges = .ok (graph.edges.map graph.placeEdge) := by
  apply mapM_eq_ok
  intro edge hedge
  obtain ⟨source, hsource⟩ := exists_position?_eq_some (hgraph.source_mem edge hedge)
  obtain ⟨target, htarget⟩ := exists_position?_eq_some (hgraph.target_mem edge hedge)
  simp only [getElem?_positions, placeEdge, hsource, htarget, Option.getD_some]

/-- The training example of a well-formed graph. -/
theorem WellFormed.project_eq_ok {graph : Graph} (hgraph : graph.WellFormed)
    (target : Target) :
    graph.project target = .ok {
      nodeLabels := graph.nodes.map Node.contents
      backbone := graph.backbone
      edges := project.groupByKind (graph.edges.map graph.placeEdge)
      target := target.tokens
      logNode := graph.logPlace } := by
  rw [project, hgraph.placedEdges_eq_ok]
  rfl

/-- A well-formed graph has a training example. -/
theorem WellFormed.exists_project_eq_ok {graph : Graph} (hgraph : graph.WellFormed)
    (target : Target) :
    ∃ training, graph.project target = .ok training ∧
      training.nodeLabels = graph.nodes.map Node.contents ∧
      training.logNode = graph.logPlace :=
  ⟨_, hgraph.project_eq_ok target, rfl, rfl⟩

/-- The labels of an example are the contents of the nodes. -/
theorem nodeLabels_of_project {graph : Graph} {target : Target}
    {training : TrainingExample} (hproject : graph.project target = .ok training) :
    training.nodeLabels = graph.nodes.map Node.contents := by
  obtain ⟨placed, _, hrest⟩ := exists_of_bind_eq_ok hproject
  rw [← Except.ok.inj hrest]

/-- A sentinel has a place. -/
theorem logPlace_nonneg {graph : Graph} {node : Node} (hnode : node ∈ graph.nodes)
    (hkind : node.kind = .log) : 0 ≤ graph.logPlace := by
  have hfound : (graph.nodes.findIdx? fun node => node.kind = .log).isSome := by
    rw [List.findIdx?_isSome, List.any_eq_true]
    exact ⟨node, hnode, decide_eq_true hkind⟩
  obtain ⟨place, hplace⟩ := Option.isSome_iff_exists.mp hfound
  rw [logPlace, hplace]
  exact Int.natCast_nonneg place

end Graph

theorem Projector.nodeLabels_of_project {projector : Projector} {graph : Graph}
    {occurrence : Occurrence} {training : TrainingExample}
    (hproject : projector.project graph occurrence = .ok training) :
    training.nodeLabels = graph.nodes.map Node.contents := by
  obtain ⟨found, hfound, hrest⟩ := exists_of_bind_eq_ok hproject
  split at hrest
  · cases hrest
  · rw [← Except.ok.inj hrest]
    exact Graph.nodeLabels_of_project hfound

/-- A well-formed graph with a sentinel has an example of every kind of dataset. -/
theorem Projector.exists_project_eq_ok (projector : Projector) {graph : Graph}
    (hgraph : graph.WellFormed) {node : Node} (hnode : node ∈ graph.nodes)
    (hkind : node.kind = .log) (occurrence : Occurrence) :
    ∃ training, projector.project graph occurrence = .ok training ∧
      training.nodeLabels = graph.nodes.map Node.contents ∧
      0 ≤ training.logNode := by
  obtain ⟨training, hproject, hlabels, hlog⟩ :=
    hgraph.exists_project_eq_ok (projector.target occurrence)
  have hplace : 0 ≤ training.logNode := hlog ▸ Graph.logPlace_nonneg hnode hkind
  refine ⟨training, ?_, hlabels, hplace⟩
  rw [project, hproject]
  exact if_neg fun h => Int.not_lt.mpr hplace h.2

end LogCorpus
