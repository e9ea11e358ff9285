/-
Canonical records.

A record may spell its integers with more groups than they need and go on after
its payload.  Writing the graph of an accepted record gives its canonical record:
one that is at most as long and is read back as the same graph.
-/
import LogCorpus.Proofs.Record.RoundTrip
import LogCorpus.Proofs.Record.Spelling

namespace LogCorpus

/-- A record that is read has a current header, is not too large, and its payload
starts with a graph. -/
theorem exists_payload_of_readRecord {record : List UInt8} {parts : Graph}
    (hread : readRecord record = .ok parts) :
    record.length ≤ maxRecordBytes ∧
      ∃ payload rest, record = magicBytes ++ currentVersion :: payload ∧
        readGraph.run payload = .ok (parts, rest) := by
  rw [readRecord] at hread
  by_cases hsize : maxRecordBytes < record.length
  · rw [if_pos hsize] at hread
    cases hread
  · rw [if_neg hsize] at hread
    refine ⟨Nat.le_of_not_lt hsize, ?_⟩
    obtain ⟨⟨version, payload⟩, hsplit, hread⟩ := exists_of_bind_eq_ok hread
    obtain ⟨_, hcurrent, hread⟩ := exists_of_bind_eq_ok hread
    have hversion : version = currentVersion := by
      by_contra hother
      rw [ensureCurrent, if_neg hother] at hcurrent
      cases hcurrent
    have hrecord : record = magicBytes ++ version :: payload := by
      rcases record with _ | ⟨a, _ | ⟨b, _ | ⟨c, _ | ⟨d, _ | ⟨found, others⟩⟩⟩⟩⟩
      iterate 5 cases hsplit
      rw [splitHeader] at hsplit
      by_cases hmagic : [a, b, c, d] = magicBytes
      · rw [if_pos hmagic] at hsplit
        injection hsplit with hsplit
        injection hsplit with hfound hothers
        rw [← hmagic, ← hfound, ← hothers]
        rfl
      · rw [if_neg hmagic] at hsplit
        cases hsplit
    cases hrun : readGraph.run payload with
    | error cause =>
        simp only [hrun] at hread
        cases hread
    | ok found =>
        obtain ⟨graph, rest⟩ := found
        simp only [hrun] at hread
        injection hread with hgraph
        exact ⟨payload, rest, hversion ▸ hrecord, hgraph ▸ hrun⟩

/-- The written form of what is read from a record is not longer than it. -/
theorem length_toRecord_le_of_readRecord {record : List UInt8} {parts : Graph}
    (hread : readRecord record = .ok parts) :
    parts.toRecord.length ≤ record.length := by
  obtain ⟨_, payload, rest, rfl, hrun⟩ := exists_payload_of_readRecord hread
  obtain ⟨piece, rfl, _, hlength⟩ := readGraph_covers payload parts rest hrun
  simp only [Graph.toRecord, List.length_append, List.length_cons]
  omega

namespace ArenaGraph

/-- Both forms of a graph are read from the same records. -/
theorem toGraph_ofRecord (record : List UInt8) :
    (ofRecord record).map toGraph = Graph.ofRecord record := by
  rw [ofRecord, Graph.ofRecord]
  cases hread : readRecord record with
  | error cause => rfl
  | ok parts => exact ofParts_toGraph parts.sourceFile parts.nodes parts.edges

/-- The graph of an accepted record fits together and has the parts that were
read. -/
theorem readRecord_of_ofRecord {record : List UInt8} {graph : ArenaGraph}
    (hrecord : ofRecord record = .ok graph) :
    graph.Consistent ∧ readRecord record = .ok graph.toGraph := by
  rw [ofRecord] at hrecord
  obtain ⟨parts, hread, hparts⟩ := exists_of_bind_eq_ok hrecord
  have hgraph := consistent_of_ofParts hparts
  have hflat := ofParts_toGraph parts.sourceFile parts.nodes parts.edges
  rw [hparts, Graph.ofParts] at hflat
  obtain ⟨_, _, hsame⟩ := exists_of_map_eq_ok hflat.symm
  rw [← hsame]
  exact ⟨hgraph, eq_ok_of_mapError_eq_ok hread⟩

/-- The graph of an accepted record fits together, and its own record is at most
as long as the accepted one and is read back as the same graph, in both forms. -/
theorem reencoded_of_accepted {record : List UInt8} {graph : ArenaGraph}
    (hrecord : ofRecord record = .ok graph) :
    graph.Consistent ∧ graph.check = .ok () ∧
      graph.toRecord.length ≤ record.length ∧
      graph.toRecord.length ≤ maxRecordBytes ∧
      ofRecord graph.toRecord = .ok graph ∧
      Graph.ofRecord record = .ok graph.toGraph ∧
      Graph.ofRecord graph.toRecord = .ok graph.toGraph := by
  obtain ⟨hgraph, hread⟩ := readRecord_of_ofRecord hrecord
  have hlength : graph.toRecord.length ≤ record.length :=
    length_toRecord_le_of_readRecord hread
  have hsize : graph.toRecord.length ≤ maxRecordBytes :=
    Nat.le_trans hlength (exists_payload_of_readRecord hread).1
  have hagain : ofRecord graph.toRecord = .ok graph := by
    have hparts : readRecord graph.toRecord = .ok graph.toGraph :=
      readRecord_toRecord hsize
    rw [ofRecord, hparts]
    exact hgraph.ofParts_toGraph_eq_ok
  refine ⟨hgraph, hgraph.check_eq_ok, hlength, hsize, hagain, ?_, ?_⟩
  · rw [← toGraph_ofRecord, hrecord]
    rfl
  · rw [← toGraph_ofRecord, hagain]
    rfl

/-- A record with overlong integers and bytes after its payload is accepted, and
the record of its graph is shorter. -/
theorem reencoded_of_overlong :
    let node : Node := ⟨5, .log, "a", 0, 0, 0, 0⟩
    let graph : ArenaGraph := ⟨"", .ofList [((5 : UInt64), node)], [5], []⟩
    let record : List UInt8 :=
      magicBytes ++ [1, 0x80, 0, 1, 0x85, 0x80, 0, 14, 0x81, 0, 97, 0, 0, 0, 0, 0,
        7, 7]
    record.length = 22 ∧ ofRecord record = .ok graph ∧
      graph.Consistent ∧ graph.toRecord.length = 16 ∧
      ofRecord graph.toRecord = .ok graph := by
  intro node graph record
  have hrecord : ofRecord record = .ok graph := by
    decide +kernel
  obtain ⟨hgraph, _, _, _, hagain, _⟩ := reencoded_of_accepted hrecord
  exact ⟨rfl, hrecord, hgraph, by decide +kernel, hagain⟩

end ArenaGraph

end LogCorpus
