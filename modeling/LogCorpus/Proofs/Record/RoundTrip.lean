/-
Graphs and their records.

Every consistent graph has a record, and the record is read back as the same
graph unless it is larger than records may be.
-/
import LogCorpus.Proofs.Graph.Building
import LogCorpus.Proofs.Record.Reading
import LogCorpus.Record.Basic

namespace LogCorpus

/-- Behind a current header, a record is read as its payload is. -/
theorem readRecord_of_payload {payload : List UInt8}
    (hsize : (magicBytes ++ currentVersion :: payload).length ≤ maxRecordBytes) :
    readRecord (magicBytes ++ currentVersion :: payload) =
      ((readGraph.run payload).map Prod.fst).mapError RecordFault.badPayload := by
  have hheader : splitHeader (magicBytes ++ currentVersion :: payload) =
      .ok (currentVersion, payload) := rfl
  have hcurrent : ensureCurrent currentVersion = .ok () := rfl
  simp only [readRecord, if_neg (Nat.not_lt.mpr hsize), hheader, hcurrent, bind,
    Except.bind]
  cases readGraph.run payload <;> rfl

/-- A record that is not too large is read back to the parts that it was written
from, well formed or not. -/
theorem readRecord_toRecord {graph : Graph}
    (hsize : graph.toRecord.length ≤ maxRecordBytes) :
    readRecord graph.toRecord = .ok graph := by
  have hpayload : (writeGraph graph).length < 2 ^ 64 := by
    rw [Graph.toRecord, List.length_append, List.length_cons] at hsize
    have hlimit : maxRecordBytes < 2 ^ 64 := by decide
    omega
  have hread : readGraph.run (writeGraph graph) = .ok (graph, []) := by
    have hreads := readGraph_reads (Graph.addressable_of_length_writeGraph_lt hpayload) []
    rwa [List.append_nil] at hreads
  rw [Graph.toRecord, readRecord_of_payload hsize, hread]
  rfl

theorem readRecord_of_tooLarge {record : List UInt8}
    (hsize : maxRecordBytes < record.length) :
    readRecord record = .error (.tooLarge record.length) := by
  simp only [readRecord, if_pos hsize]
  rfl

namespace ArenaGraph

/-- A graph is read back from its record, in both forms, if the record is at
most as large as records may be.  A larger record is refused for its size. -/
theorem ofRecord_toRecord {graph : ArenaGraph} (hgraph : graph.Consistent) :
    ofRecord graph.toRecord =
        (if graph.toRecord.length ≤ maxRecordBytes then .ok graph
        else .error (RecordFault.tooLarge graph.toRecord.length).toFault) ∧
      Graph.ofRecord graph.toRecord =
        (if graph.toRecord.length ≤ maxRecordBytes then .ok graph.toGraph
        else .error (RecordFault.tooLarge graph.toRecord.length).toFault) := by
  by_cases hsize : graph.toRecord.length ≤ maxRecordBytes
  · have hread : readRecord graph.toRecord = .ok graph.toGraph :=
      readRecord_toRecord hsize
    rw [if_pos hsize, if_pos hsize, ofRecord, Graph.ofRecord, hread]
    constructor
    · exact hgraph.ofParts_toGraph_eq_ok
    · change (graph.toGraph.check >>= fun _ => pure graph.toGraph) = _
      rw [hgraph.wellFormed.check_eq_ok]
      rfl
  · have hread := readRecord_of_tooLarge (Nat.lt_of_not_le hsize)
    rw [if_neg hsize, if_neg hsize, ofRecord, Graph.ofRecord, hread]
    exact ⟨rfl, rfl⟩

/-- The largest numbers and a text that is not ASCII are read back. -/
theorem ofRecord_toRecord_of_extremes :
    let id : UInt64 := 18446744073709551615
    let node : Node :=
      ⟨id, .log, "→", 4294967295, 4294967295, 4294967295, 4294967295⟩
    let graph : ArenaGraph :=
      ⟨"Größe.java", .ofList [(id, node)], [id], [⟨id, id, .nextToken⟩]⟩
    graph.Consistent ∧ graph.toRecord.length = 76 ∧
      ofRecord graph.toRecord = .ok graph := by
  intro id node graph
  have hparts : ofParts graph.sourceFile graph.nodes graph.edges = .ok graph := by
    decide +kernel
  have hgraph := consistent_of_ofParts hparts
  have hlength : graph.toRecord.length = 76 := by
    decide +kernel
  refine ⟨hgraph, hlength, ?_⟩
  rw [(ofRecord_toRecord hgraph).1, hlength]
  rfl

end ArenaGraph

end LogCorpus
