/-
Detected statements and their conversion.

A statement is detected in a graph that was read from its record.  As long as the
record is what it was, the conversion reads the same graph, so all that can keep
it from an example is the size of that graph.
-/
import LogCorpus.Corpus.Basic
import LogCorpus.Proofs.Corpus.Storage
import LogCorpus.Proofs.Occurrence.Detection
import LogCorpus.Proofs.Occurrence.Index

namespace LogCorpus

namespace Corpus

theorem mem_statementsOf_iff {corpus : Corpus} {disk : Disk} {graphPath : String}
    {occurrence : Occurrence} :
    occurrence ∈ corpus.statementsOf disk graphPath ↔
      ∃ graph, corpus.load graphPath disk = .ok graph ∧
        occurrence ∈ graph.statements graphPath := by
  unfold statementsOf
  cases corpus.load graphPath disk with
  | error fault => simp
  | ok graph => simp

/-- A detected statement is one of the graph in its record. -/
theorem exists_load_of_mem_detect {corpus : Corpus} {disk : Disk}
    {found : List Occurrence} (hdetect : corpus.detect disk = .ok found)
    {occurrence : Occurrence} (hfound : occurrence ∈ found) :
    ∃ graph, corpus.load occurrence.graphPath disk = .ok graph ∧
      occurrence ∈ graph.statements occurrence.graphPath := by
  rw [detect] at hdetect
  obtain ⟨paths, _, rfl⟩ := exists_of_map_eq_ok hdetect
  obtain ⟨path, _, hstatement⟩ := List.mem_flatMap.mp hfound
  obtain ⟨graph, hload, hstatement⟩ := mem_statementsOf_iff.mp hstatement
  have hpath := (Graph.mem_statements_iff.mp hstatement).1
  rw [hpath]
  exact ⟨graph, hload, hstatement⟩

end Corpus

/-- A statement that is detected in a graph leaves a graph with a sentinel. -/
theorem Graph.WellFormed.exists_excised_of_mem_statements {graph : Graph}
    (hgraph : graph.WellFormed) {graphPath : String} {occurrence : Occurrence}
    (hfound : occurrence ∈ graph.statements graphPath) :
    ∃ after, Converter.excised graph occurrence = .ok after ∧ after.WellFormed ∧
      ∃ node ∈ after.nodes, node.kind = .log := by
  obtain ⟨_, place, stop, hdetects⟩ := mem_statements_iff.mp hfound
  obtain ⟨root, span, hroot, hlocate, _⟩ := hdetects.exists_locate_eq_ok hgraph
  obtain ⟨excision, hexcise, _, hafter⟩ := exists_excise_eq_ok hlocate
  have hspan := isStatement_of_locate hlocate
  obtain ⟨node, _, hid, hnodes⟩ := hgraph.nodes_excised hspan
  refine ⟨excision.graph, ?_, hgraph.of_excise hexcise, node.seal span, ?_, ?_⟩
  · rw [Converter.excised, hroot]
    simp only [hexcise]
    rfl
  · rw [hafter, hnodes]
    exact List.mem_append_right _ List.mem_cons_self
  · rw [Node.seal, if_pos (hid.trans hspan.root_eq.symm)]

theorem Converter.excised_congr {graph : Graph} {occurrence other : Occurrence}
    (hroot : occurrence.root = other.root) :
    excised graph occurrence = excised graph other := by
  rw [excised, excised, hroot]

/-- Every detected statement converts, also when it comes out of an index, as
long as its record is what it was.  The only thing that can keep it from an
example is the size of its graph, and a sentinel stands in every example. -/
theorem Converter.convert_of_detected {converter : Converter} {disk later : Disk}
    {found : List Occurrence} (hdetect : converter.corpus.detect disk = .ok found)
    (hunchanged : ∀ occurrence ∈ found,
      later.lookup (converter.corpus.resolve occurrence.graphPath) =
        disk.lookup (converter.corpus.resolve occurrence.graphPath)) :
    parseIndex (utf8 (renderIndex found)) = .ok (found.map Occurrence.indexed) ∧
      ∀ occurrence, occurrence ∈ found ∨ occurrence ∈ found.map Occurrence.indexed →
        ∃ graph, converter.corpus.load occurrence.graphPath later = .ok graph ∧
          if converter.maxGraphNodes < graph.nodeCount then
            converter.convert later occurrence =
              .error (.graphTooLarge graph.nodeCount converter.maxGraphNodes)
          else
            ∃ training, converter.convert later occurrence = .ok training ∧
              0 ≤ training.logNode := by
  refine ⟨parseIndex_renderIndex found, ?_⟩
  intro occurrence hoccurrence
  -- a row has the path, the root and the target of the statement that was detected
  obtain ⟨statement, hstatement, hpath, hroot⟩ : ∃ statement ∈ found,
      statement.graphPath = occurrence.graphPath ∧
        statement.root = occurrence.root := by
    rcases hoccurrence with hfound | hrow
    · exact ⟨occurrence, hfound, rfl, rfl⟩
    · obtain ⟨statement, hstatement, rfl⟩ := List.mem_map.mp hrow
      exact ⟨statement, hstatement, rfl, rfl⟩
  obtain ⟨graph, hload, hdetected⟩ :=
    Corpus.exists_load_of_mem_detect hdetect hstatement
  have hgraph := Corpus.wellFormed_of_load hload
  rw [← Corpus.load_congr (hunchanged statement hstatement), hpath] at hload
  refine ⟨graph, hload, ?_⟩
  rw [convert_of_load hload]
  by_cases hsize : converter.maxGraphNodes < graph.nodeCount
  · rw [if_pos hsize, if_pos hsize]
  · obtain ⟨after, hexcised, hafter, node, hnode, hkind⟩ :=
      hgraph.exists_excised_of_mem_statements hdetected
    obtain ⟨training, hproject, _, hlog⟩ :=
      converter.projector.exists_project_eq_ok hafter hnode hkind occurrence
    rw [excised_congr hroot] at hexcised
    rw [if_neg hsize, if_neg hsize, hexcised]
    exact ⟨training, hproject, hlog⟩

/-- A call is detected in a corpus of one record and converted after its index was
written beside the corpus. -/
theorem Converter.convert_of_detected_call :
    let word (id : UInt64) (contents : String) : Node :=
      ⟨id, .token, contents, 3, 3, 0, 1⟩
    let graph : Graph :=
      ⟨"A.java", [word 1 "log", word 2 "DOT", word 3 "info", word 4 "LPAREN",
        word 5 "m", word 6 "RPAREN", word 7 "SEMI"], [⟨1, 2, .nextToken⟩]⟩
    let entries : List (Location × Entry) := [(["corpus"], .directory),
      (["corpus", "A.proto"], .file (.bytes graph.toRecord))]
    let disk : Disk := { entries := .ofList entries }
    let call : Occurrence := ⟨"A.proto", .info, "m", some 1, some 3⟩
    let index : Entry := .file (.bytes (utf8 (renderIndex [call])))
    let later : Disk := disk.put ["index.json"] index
    let converter : Converter := ⟨⟨"/corpus"⟩, ⟨.statement, wordTokens⟩, 7⟩
    converter.corpus.detect disk = .ok [call] ∧
      ∃ training, converter.convert later call = .ok training ∧
        0 ≤ training.logNode := by
  intro word graph entries disk call index later converter
  have hdetect : converter.corpus.detect disk = .ok [call] := by
    decide +kernel
  have hunchanged : ∀ occurrence ∈ [call],
      later.lookup (converter.corpus.resolve occurrence.graphPath) =
        disk.lookup (converter.corpus.resolve occurrence.graphPath) := by
    intro occurrence hoccurrence
    rw [List.mem_singleton.mp hoccurrence]
    decide +kernel
  have hload : converter.corpus.load "A.proto" later = .ok graph := by
    decide +kernel
  obtain ⟨_, hconvert⟩ := convert_of_detected hdetect hunchanged
  obtain ⟨loaded, hsame, houtcome⟩ := hconvert call (.inl List.mem_cons_self)
  rw [hload] at hsame
  injection hsame with hsame
  subst hsame
  rw [if_neg (by decide)] at houtcome
  exact ⟨hdetect, houtcome⟩

end LogCorpus
