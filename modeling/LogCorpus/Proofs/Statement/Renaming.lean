/-
Excision under new ids.

An excision looks at ids only to tell nodes apart.  So it does the same to a graph and
to its renamed copy: the span has the same places, the same numbers are reported, what
is left is the renamed copy of what was left, and the training examples are equal.
-/
import LogCorpus.Proofs.Graph.Renaming

namespace LogCorpus

/-- The span of the same places under the root's new id. -/
def Span.rename (f : UInt64 → UInt64) (span : Span) : Span :=
  { span with root := f span.root }

/-- The same numbers for the renamed span. -/
def Surgery.rename (f : UInt64 → UInt64) (surgery : Surgery) : Surgery :=
  { surgery with span := surgery.span.rename f }

/-- The same numbers for the renamed span, and the graph that is left under its new
ids. -/
def Excision.rename (f : UInt64 → UInt64) (excision : Excision) : Excision :=
  { excision with
    span := excision.span.rename f
    graph := excision.graph.rename f }

/-- An outcome under new ids. -/
def renameOutcome {α : Type} (f : UInt64 → UInt64) (rename : α → α) :
    Except Fault α → Except Fault α
  | .ok result => .ok (rename result)
  | .error fault => .error (fault.rename f)

theorem Node.leaks_rename (f : UInt64 → UInt64) (node : Node) :
    (node.rename f).leaks = node.leaks := rfl

theorem Node.sanitize_rename (f : UInt64 → UInt64) (node : Node) :
    (node.rename f).sanitize = node.sanitize.rename f := by
  rw [sanitize, sanitize, leaks_rename]
  split <;> rfl

theorem firstTerminator?_map_rename (f : UInt64 → UInt64) (nodes : List Node) :
    firstTerminator? (nodes.map (Node.rename f)) =
      (firstTerminator? nodes).map fun found => (found.1, found.2.rename f) := by
  induction nodes with
  | nil => rfl
  | cons head tail ih =>
      rw [List.map_cons, firstTerminator?, firstTerminator?, ih]
      by_cases hhead : head.endsStatement
      · rw [if_pos hhead, if_pos (show (head.rename f).endsStatement from hhead)]
        rfl
      · rw [if_neg hhead, if_neg (show ¬ (head.rename f).endsStatement from hhead),
          Option.map_map, Option.map_map]
        rfl

section

variable {f : UInt64 → UInt64} (hf : Function.Injective f)
include hf

theorem Edge.isInside_rename (ids : List UInt64) (edge : Edge) :
    (edge.rename f).isInside (ids.map f) = edge.isInside ids := by
  simp only [isInside, rename, contains_map_rename hf]

theorem Edge.relink_rename (ids : List UInt64) (root : UInt64) (edge : Edge) :
    (edge.rename f).relink (ids.map f) (f root) = (edge.relink ids root).rename f := by
  simp only [relink, rename, contains_map_rename hf, apply_ite f]

theorem Edge.movesSource_rename (ids : List UInt64) (root : UInt64) (edge : Edge) :
    (edge.rename f).movesSource (ids.map f) (f root) = edge.movesSource ids root := by
  simp only [movesSource, rename, contains_map_rename hf, hf.ne_iff]

theorem Edge.movesTarget_rename (ids : List UInt64) (root : UInt64) (edge : Edge) :
    (edge.rename f).movesTarget (ids.map f) (f root) = edge.movesTarget ids root := by
  simp only [movesTarget, rename, contains_map_rename hf, hf.ne_iff]

theorem Node.seal_rename (span : Span) (node : Node) :
    (node.rename f).seal (span.rename f) = (node.seal span).rename f := by
  have hroot : (node.rename f).id = (span.rename f).root ↔ node.id = span.root :=
    hf.eq_iff
  rw [Node.seal, Node.seal]
  by_cases heq : node.id = span.root
  · rw [if_pos heq, if_pos (hroot.mpr heq)]
    rfl
  · rw [if_neg heq, if_neg (mt hroot.mp heq)]

/-- The same edges are kept. -/
theorem filter_isInside_rename (ids : List UInt64) (edges : List Edge) :
    (edges.map (Edge.rename f)).filter (fun edge => !edge.isInside (ids.map f)) =
      (edges.filter fun edge => !edge.isInside ids).map (Edge.rename f) := by
  rw [List.filter_map]
  congr 1
  apply List.filter_congr
  intro edge _
  rw [Function.comp_apply, edge.isInside_rename hf]

end

namespace Graph

theorem spanNodes_rename (f : UInt64 → UInt64) (graph : Graph) (span : Span) :
    (graph.rename f).spanNodes (span.rename f) =
      (graph.spanNodes span).map (Node.rename f) := by
  simp only [spanNodes, rename, Span.rename, List.map_drop, List.map_take]

theorem ids_spanNodes_rename (f : UInt64 → UInt64) (graph : Graph) (span : Span) :
    ((graph.rename f).spanNodes (span.rename f)).map Node.id =
      ((graph.spanNodes span).map Node.id).map f := by
  rw [spanNodes_rename, List.map_map, List.map_map]
  rfl

theorem leakCount_rename (f : UInt64 → UInt64) (graph : Graph) :
    (graph.rename f).leakCount = graph.leakCount := by
  rw [leakCount, leakCount, rename, List.countP_map]
  rfl

theorem sanitize_rename (f : UInt64 → UInt64) (graph : Graph) :
    (graph.rename f).sanitize = graph.sanitize.rename f := by
  simp only [sanitize, rename, List.map_map, Function.comp_def, Node.sanitize_rename]

section

variable {f : UInt64 → UInt64} (hf : Function.Injective f)
include hf

/-- The statement has the same places. -/
theorem locate_rename (graph : Graph) (root : UInt64) :
    (graph.rename f).locate (f root) =
      renameOutcome f (Span.rename f) (graph.locate root) := by
  rw [locate, locate, position?_rename hf]
  cases graph.position? root with
  | none => rfl
  | some base =>
      simp only [rename, ← List.map_drop, firstTerminator?_map_rename]
      cases firstTerminator? (graph.nodes.drop (base + 1)) <;> rfl

theorem contract_rename (graph : Graph) (span : Span) :
    (graph.rename f).contract (span.rename f) = (graph.contract span).rename f := by
  rw [contract, contract, ids_spanNodes_rename]
  generalize (graph.spanNodes span).map Node.id = ids
  simp only [rename, Span.rename, filter_isInside_rename hf, ← List.map_take,
    ← List.map_drop, ← List.map_append, List.map_map]
  congr 1
  · apply List.map_congr_left
    intro node _
    exact node.seal_rename hf span
  · apply List.map_congr_left
    intro edge _
    exact edge.relink_rename hf ids span.root

/-- An excision does to the renamed graph what it does to the graph. -/
theorem excise_rename (graph : Graph) (root : UInt64) :
    (graph.rename f).excise (f root) =
      renameOutcome f (Excision.rename f) (graph.excise root) := by
  rw [excise, excise, locate_rename hf]
  cases graph.locate root with
  | error fault => rfl
  | ok span =>
      have hsource (ids : List UInt64) :
          Edge.movesSource (ids.map f) (f root) ∘ Edge.rename f =
            Edge.movesSource ids root :=
        funext fun edge => edge.movesSource_rename hf ids root
      have htarget (ids : List UInt64) :
          Edge.movesTarget (ids.map f) (f root) ∘ Edge.rename f =
            Edge.movesTarget ids root :=
        funext fun edge => edge.movesTarget_rename hf ids root
      change Except.ok _ = Except.ok _
      rw [contract_rename hf, ids_spanNodes_rename, leakCount_rename, sanitize_rename]
      simp only [edgeCount, rename, filter_isInside_rename hf, List.countP_map,
        hsource, htarget, List.length_map]
      rfl

end

end Graph

namespace ArenaGraph

section

variable {f : UInt64 → UInt64} (hf : Function.Injective f) {graph : ArenaGraph}
  (hgraph : graph.Consistent) {root : UInt64}
include hf hgraph

/-- An excision that fails leaves either graph as it was. -/
theorem Consistent.run_excise_rename_of_error {fault : Fault}
    (hexcise : graph.toGraph.excise root = .error fault) :
    (excise (f root)).run (graph.rename f) =
      (.error (fault.rename f), graph.rename f) := by
  apply (hgraph.rename hf).run_excise_of_error
  rw [graph.toGraph_rename hf, Graph.excise_rename hf, hexcise]
  rfl

/-- An excision that succeeds leaves the renamed copy of what is left. -/
theorem Consistent.run_excise_rename_of_ok {excision : Excision}
    (hexcise : graph.toGraph.excise root = .ok excision) :
    ∃ after : ArenaGraph, (excise root).run graph = (.ok excision.surgery, after) ∧
      after.Consistent ∧
      (excise (f root)).run (graph.rename f) =
        (.ok (excision.surgery.rename f), after.rename f) := by
  have hrenamed : (graph.rename f).toGraph.excise (f root) =
      .ok (excision.rename f) := by
    rw [graph.toGraph_rename hf, Graph.excise_rename hf, hexcise]
    rfl
  -- the two runs are known by their flat forms, and these by the renamed excision
  obtain ⟨after, hrun, hafter, hflat⟩ := hgraph.run_excise_of_ok hexcise
  obtain ⟨other, hother, hotherConsistent, hotherFlat⟩ :=
    (hgraph.rename hf).run_excise_of_ok hrenamed
  have hsame : other = after.rename f := by
    apply hotherConsistent.eq_of_toGraph_eq (hafter.rename hf)
    rw [hotherFlat, after.toGraph_rename hf, hflat]
    rfl
  exact ⟨after, hrun, hafter, hsame ▸ hother⟩

end

/-- Ids do not matter.  A consistent graph and its copy under a renaming that keeps ids
apart have the same training examples.  An excision fails on both with faults of the
same kind and leaves them as they were, or it succeeds on both: then the spans have the
same places, the numbers are the same, and what is left of the copy is the copy of what
is left, so the training examples are the same again. -/
theorem Consistent.excise_under_renaming {graph : ArenaGraph} (hgraph : graph.Consistent)
    {f : UInt64 → UInt64} (hf : Function.Injective f) (root : UInt64) :
    (graph.rename f).Consistent ∧
      (graph.rename f).toGraph = graph.toGraph.rename f ∧
      (∀ target, (graph.rename f).toGraph.project target =
        graph.toGraph.project target) ∧
      match (excise root).run graph with
      | (.ok surgery, after) =>
          (excise (f root)).run (graph.rename f) =
              (.ok (surgery.rename f), after.rename f) ∧
            ∀ target, (after.rename f).toGraph.project target =
              after.toGraph.project target
      | (.error fault, after) =>
          ∃ other, (excise (f root)).run (graph.rename f) =
              (.error other, after.rename f) ∧ other.reason = fault.reason := by
  have hproject {graph : ArenaGraph} (hgraph : graph.Consistent) (target : Target) :
      (graph.rename f).toGraph.project target = graph.toGraph.project target := by
    rw [graph.toGraph_rename hf]
    exact hgraph.wellFormed.project_rename hf target
  refine ⟨hgraph.rename hf, graph.toGraph_rename hf, hproject hgraph, ?_⟩
  cases hexcise : graph.toGraph.excise root with
  | error fault =>
      rw [hgraph.run_excise_of_error hexcise]
      exact ⟨_, hgraph.run_excise_rename_of_error hf hexcise, fault.reason_rename f⟩
  | ok excision =>
      obtain ⟨after, hrun, hafter, hrenamed⟩ :=
        hgraph.run_excise_rename_of_ok hf hexcise
      rw [hrun]
      exact ⟨hrenamed, hproject hafter⟩

/-- The order of the ids is turned round. -/
theorem excise_under_renaming_of_call :
    let word (id : UInt64) (contents : String) : Node :=
      ⟨id, .token, contents, 3, 3, 0, 1⟩
    let edges : List Edge := [⟨1, 2, .nextToken⟩, ⟨2, 4, .nextToken⟩,
      ⟨2, 3, .astChild⟩, ⟨4, 5, .nextToken⟩]
    let graph : ArenaGraph :=
      ⟨"A.java", .ofList [((1 : UInt64), word 1 "x"), (2, word 2 "log"),
        (3, word 3 "info"), (4, word 4 ";"), (5, word 5 "Level.INFO")],
        [1, 2, 3, 4, 5], edges⟩
    let turned (id : UInt64) : UInt64 := 100 - id
    graph.Consistent ∧ Function.Injective turned ∧
      ∃ after, (excise (turned 2)).run (graph.rename turned) =
          (.ok ⟨⟨98, 1, 4, 3, 1⟩, 2, 1, 1⟩, after) ∧
        after.order = [99, 98, 95] ∧
        after.edges = [⟨99, 98, .nextToken⟩, ⟨98, 95, .nextToken⟩] := by
  intro word edges graph turned
  have hparts : ofParts "A.java" [word 1 "x", word 2 "log", word 3 "info",
      word 4 ";", word 5 "Level.INFO"] edges = .ok graph := by
    decide +kernel
  have hgraph := consistent_of_ofParts hparts
  have hturned : Function.Injective turned := by
    intro id other heq
    have hsame : (100 : UInt64) - id = 100 - other := heq
    grind
  let after : ArenaGraph :=
    ⟨"A.java", .ofList [((1 : UInt64), word 1 "x"), (2, ⟨2, .log, "", 3, 3, 0, 1⟩),
      (5, word 5 "")], [1, 2, 5], [⟨1, 2, .nextToken⟩, ⟨2, 5, .nextToken⟩]⟩
  have hrun : (excise 2).run graph = (.ok ⟨⟨2, 1, 4, 3, 1⟩, 2, 1, 1⟩, after) := by
    apply Prod.ext <;> decide +kernel
  obtain ⟨_, _, _, hrenamed⟩ := hgraph.excise_under_renaming hturned 2
  rw [hrun] at hrenamed
  exact ⟨hgraph, hturned, after.rename turned, hrenamed.1, rfl, rfl⟩

end ArenaGraph

end LogCorpus
