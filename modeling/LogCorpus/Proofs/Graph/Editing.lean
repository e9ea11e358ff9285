/-
Runs of edits.

A working graph starts empty, from parts or from a record, and is then edited in
any way.  Every edit keeps it consistent and does to the flat form what the flat
operation does, so every graph that is ever reached is consistent, and an edit
that fails leaves it as it was.
-/
import LogCorpus.Proofs.Statement.Surgery
import LogCorpus.Record.Basic

namespace LogCorpus

/-- An edit of a graph. -/
inductive Edit where
  | pushNode (node : Node)
  | pushEdge (edge : Edge)
  | excise (root : UInt64)
  | sanitize
deriving Repr, DecidableEq

namespace Edit

/-- Carry out an edit in place. -/
def perform : Edit → Editing Unit
  | pushNode node => ArenaGraph.pushNode node
  | pushEdge edge => ArenaGraph.pushEdge edge
  | excise root => do
      let _ ← ArenaGraph.excise root
      return ()
  | sanitize => do
      let _ ← ArenaGraph.sanitize
      return ()

/-- Carry out an edit on the flat form. -/
def onGraph (graph : Graph) : Edit → Except Fault Graph
  | pushNode node => graph.pushNode node
  | pushEdge edge => graph.pushEdge edge
  | excise root => (graph.excise root).map Excision.graph
  | sanitize => .ok graph.sanitize

end Edit

/-- The graph after a list of edits; one that fails is passed over. -/
def Graph.afterEdits (graph : Graph) (edits : List Edit) : Graph :=
  edits.foldl (fun graph edit =>
    match edit.onGraph graph with
    | .ok after => after
    | .error _ => graph) graph

namespace ArenaGraph

/-- The graph that a list of edits leaves, whether they fail or not. -/
def afterEdits (graph : ArenaGraph) (edits : List Edit) : ArenaGraph :=
  edits.foldl (fun graph edit => (edit.perform.run graph).2) graph

/-- Where a graph comes from before it is edited. -/
inductive Initial : ArenaGraph → Prop
  | empty (sourceFile : String) : Initial (empty sourceFile)
  | ofParts {sourceFile : String} {nodes : List Node} {edges : List Edge}
      {graph : ArenaGraph} (hparts : ofParts sourceFile nodes edges = .ok graph) :
      Initial graph
  | ofRecord {record : List UInt8} {graph : ArenaGraph}
      (hrecord : ofRecord record = .ok graph) : Initial graph

theorem consistent_of_ofRecord {record : List UInt8} {graph : ArenaGraph}
    (hrecord : ofRecord record = .ok graph) : graph.Consistent := by
  rw [ofRecord] at hrecord
  cases hread : readRecord record with
  | error fault =>
      rw [hread] at hrecord
      cases hrecord
  | ok parts =>
      rw [hread] at hrecord
      exact consistent_of_ofParts hrecord

theorem Initial.consistent {graph : ArenaGraph} (hinitial : Initial graph) :
    graph.Consistent := by
  cases hinitial with
  | empty sourceFile => exact consistent_empty sourceFile
  | ofParts hparts => exact consistent_of_ofParts hparts
  | ofRecord hrecord => exact consistent_of_ofRecord hrecord

theorem excise_refines {graph : ArenaGraph} (hgraph : graph.Consistent)
    (root : UInt64) :
    Refines ((Edit.excise root).perform.run graph) graph
      ((graph.toGraph.excise root).map Excision.graph) := by
  cases hexcise : graph.toGraph.excise root with
  | ok excision =>
      obtain ⟨after, hrun, hafter, hflat⟩ := hgraph.run_excise_of_ok hexcise
      rw [Edit.perform, run_bind_of_ok hrun]
      exact ⟨hafter, congrArg Except.ok hflat.symm⟩
  | error fault =>
      rw [Edit.perform, run_bind_of_error (hgraph.run_excise_of_error hexcise)]
      exact ⟨rfl, rfl⟩

theorem sanitize_refines {graph : ArenaGraph} (hgraph : graph.Consistent) :
    Refines (Edit.sanitize.perform.run graph) graph
      (.ok graph.toGraph.sanitize) := by
  rw [Edit.perform, run_bind_of_ok hgraph.run_sanitize]
  exact ⟨hgraph.sanitized, congrArg Except.ok graph.toGraph_sanitized.symm⟩

/-- What one edit preserves, and what it leaves alone if it fails. -/
theorem perform_refines {graph : ArenaGraph} (hgraph : graph.Consistent)
    (edit : Edit) :
    Refines (edit.perform.run graph) graph (edit.onGraph graph.toGraph) := by
  cases edit with
  | pushNode node => exact pushNode_refines hgraph node
  | pushEdge edge => exact pushEdge_refines hgraph edge
  | excise root => exact excise_refines hgraph root
  | sanitize => exact sanitize_refines hgraph

/-- What a whole run preserves. -/
theorem Consistent.afterEdits {graph : ArenaGraph} (hgraph : graph.Consistent)
    (edits : List Edit) :
    (graph.afterEdits edits).Consistent ∧
      (graph.afterEdits edits).toGraph = graph.toGraph.afterEdits edits := by
  induction edits generalizing graph with
  | nil => exact ⟨hgraph, rfl⟩
  | cons edit rest ih =>
      have hedit := perform_refines hgraph edit
      rw [ArenaGraph.afterEdits, Graph.afterEdits, List.foldl_cons,
        List.foldl_cons]
      cases hrun : edit.perform.run graph with
      | mk outcome after =>
          rw [hrun] at hedit
          cases outcome with
          | ok done =>
              rw [hedit.2]
              exact ih hedit.1
          | error fault =>
              rw [hedit.2, hedit.1]
              exact ih hgraph

/-- Every graph that edits reach is consistent and passes the check, its views
agree on the place of every id, an edit that fails leaves it as it was, and its
flat form is what the flat operations make of the first one. -/
theorem edits_keep_consistency {start : ArenaGraph} (hstart : Initial start)
    (edits : List Edit) :
    let reached := start.afterEdits edits
    reached.Consistent ∧
      reached.check = .ok () ∧
      reached.nodes.length = reached.nodeCount ∧
      (∀ (id : UInt64) (place : Nat),
        ((id, place) ∈ reached.indexMap ↔ reached.position? id = some place) ∧
        ((∃ node, reached.nodeAt? place = some node ∧ node.id = id) ↔
          reached.position? id = some place) ∧
        ((∃ node, (node, place) ∈ reached.nodes.zipIdx ∧ node.id = id) ↔
          reached.position? id = some place)) ∧
      (∀ (edit : Edit) (fault : Fault) (after : ArenaGraph),
        edit.perform.run reached = (.error fault, after) → after = reached) ∧
      reached.toGraph = start.toGraph.afterEdits edits := by
  obtain ⟨hreached, hflat⟩ := hstart.consistent.afterEdits edits
  refine ⟨hreached, hreached.check_eq_ok, hreached.length_nodes, ?_, ?_, hflat⟩
  · intro id place
    refine ⟨hreached.mem_indexMap_iff id place,
      hreached.exists_nodeAt?_iff id place, ?_⟩
    rw [← hreached.exists_nodeAt?_iff id place, hreached.nodeAt?_eq]
    simp only [List.mem_zipIdx_iff_getElem?]
  · intro edit fault after hfails
    have hedit := perform_refines hreached edit
    rw [hfails] at hedit
    exact hedit.1

/-- A statement is built, cut out of its graph and built on; three of the edits
fail. -/
theorem edits_of_statement_keep_consistency :
    let start := empty "Main.java"
    let call : Node := ⟨7, .token, "log", 4, 4, 8, 11⟩
    let semicolon : Node := ⟨9, .token, ";", 5, 5, 2, 3⟩
    let edits := [.excise 7, .pushNode call, .pushNode semicolon, .pushNode call,
      .pushEdge ⟨7, 9, .nextToken⟩, .excise 7, .pushEdge ⟨7, 9, .nextToken⟩]
    let reached := start.afterEdits edits
    Initial start ∧ reached.Consistent ∧
      reached.toGraph = ⟨"Main.java", [⟨7, .log, "", 4, 5, 8, 3⟩], []⟩ := by
  intro start call semicolon edits reached
  obtain ⟨hreached, _, _, _, _, hflat⟩ :=
    edits_keep_consistency (Initial.empty "Main.java") edits
  refine ⟨.empty _, hreached, hflat.trans ?_⟩
  decide +kernel

end ArenaGraph

end LogCorpus
