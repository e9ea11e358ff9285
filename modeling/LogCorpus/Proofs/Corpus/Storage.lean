/-
Records that are stored and loaded.

A record is written at the place that its path leads to once the directories on the
way are made.  As long as the file at that place is not written again, the graph is
loaded from it, if its record is at most as large as records may be.
-/
import LogCorpus.Proofs.Conversion.Converter
import LogCorpus.Proofs.Record.Canonical

namespace LogCorpus

theorem Graph.wellFormed_of_ofRecord {record : List UInt8} {graph : Graph}
    (hrecord : ofRecord record = .ok graph) : graph.WellFormed := by
  rw [← ArenaGraph.toGraph_ofRecord] at hrecord
  obtain ⟨working, hworking, rfl⟩ := exists_of_map_eq_ok hrecord
  exact (ArenaGraph.readRecord_of_ofRecord hworking).1.wellFormed

/-- A well-formed graph is read back from its record. -/
theorem Graph.WellFormed.ofRecord_toRecord_eq_ok {graph : Graph} (hgraph : graph.WellFormed)
    (hsize : graph.toRecord.length ≤ maxRecordBytes) :
    ofRecord graph.toRecord = .ok graph := by
  rw [ofRecord, readRecord_toRecord hsize]
  change (graph.check >>= fun _ => pure graph) = _
  rw [hgraph.check_eq_ok]
  rfl

namespace Corpus

variable {corpus : Corpus} {graphPath : String} {disk other : Disk} {graph : Graph}

/-- The file at the path of a record holds that of a graph. -/
def Holds (corpus : Corpus) (disk : Disk) (graphPath : String) (graph : Graph) : Prop :=
  ∃ place, disk.lookup (corpus.resolve graphPath) =
    .ok (place, .file (.bytes graph.toRecord))

/-- What is loaded is read from the record in a file. -/
theorem exists_file_of_load_eq_ok (hload : corpus.load graphPath disk = .ok graph) :
    ∃ place content,
      disk.lookup (corpus.resolve graphPath) = .ok (place, .file content) ∧
        Graph.ofRecord content.toBytes = .ok graph := by
  rw [load] at hload
  obtain ⟨_, _, hload⟩ := exists_of_bind_eq_ok hload
  split at hload
  · cases hload
  rw [readRecordFile] at hload
  obtain ⟨_, _, hload⟩ := exists_of_bind_eq_ok hload
  obtain ⟨_, _, hload⟩ := exists_of_bind_eq_ok hload
  obtain ⟨record, hread, hrecord⟩ := exists_of_bind_eq_ok hload
  obtain ⟨⟨place, entry⟩, hlookup, hread⟩ :=
    exists_of_bind_eq_ok (eq_ok_of_mapError_eq_ok hread)
  cases entry with
  | directory => cases hread
  | file content =>
      injection hread with hread
      exact ⟨place, content, hlookup, hread ▸ hrecord⟩

theorem wellFormed_of_load (hload : corpus.load graphPath disk = .ok graph) :
    graph.WellFormed := by
  obtain ⟨_, _, _, hrecord⟩ := exists_file_of_load_eq_ok hload
  exact Graph.wellFormed_of_ofRecord hrecord

/-- The graph of a stored record is loaded. -/
theorem Holds.load_eq_ok (hholds : corpus.Holds disk graphPath graph)
    (hgraph : graph.WellFormed) (hsize : graph.toRecord.length ≤ maxRecordBytes) :
    corpus.load graphPath disk = .ok graph := by
  obtain ⟨place, hlookup⟩ := hholds
  have hrecord := hgraph.ofRecord_toRecord_eq_ok hsize
  have hheader : splitHeader (graph.toRecord.take headerLength) =
      .ok (currentVersion, []) := rfl
  simp only [load, readRecordFile, Disk.size, Disk.readStart, Disk.read, hlookup]
  change (if maxRecordBytes < graph.toRecord.length then _ else _) = _
  rw [if_neg (Nat.not_lt.mpr hsize)]
  exact hrecord

/-- A record at none of the places is loaded alike from a disk that has grown. -/
theorem load_of_growsOff {places : Set Location}
    (hgrows : Disk.GrowsOff places disk other)
    (hapart : ∀ place ∈ places, other.locate (corpus.resolve graphPath) ≠ .ok place)
    (hload : corpus.load graphPath disk = .ok graph) :
    corpus.load graphPath other = .ok graph := by
  obtain ⟨place, content, hlookup, _⟩ := exists_file_of_load_eq_ok hload
  have hlocate := hgrows.locate_eq_ok (Disk.locate_of_lookup_eq_ok hlookup).1
  have hplace : place ∉ places := fun hmem => hapart place hmem hlocate
  rw [load_congr ((hgrows.lookup_eq_ok hlookup hplace).trans hlookup.symm), hload]

/-- A stored record at none of the places stays stored. -/
theorem Holds.of_growsOff {places : Set Location}
    (hholds : corpus.Holds disk graphPath graph)
    (hgrows : Disk.GrowsOff places disk other)
    (hapart : ∀ place ∈ places, other.locate (corpus.resolve graphPath) ≠ .ok place) :
    corpus.Holds other graphPath graph := by
  obtain ⟨place, hlookup⟩ := hholds
  have hlocate := hgrows.locate_eq_ok (Disk.locate_of_lookup_eq_ok hlookup).1
  exact ⟨place, hgrows.lookup_eq_ok hlookup fun hmem => hapart place hmem hlocate⟩

/-- Storing makes directories, which changes no file, and then fails or writes the
record where its path leads. -/
theorem exists_run_store (corpus : Corpus) (graphPath : String) (graph : Graph)
    (disk : Disk) :
    ∃ ready : Disk, Disk.GrowsOff ∅ disk ready ∧
      ((∃ fault, (corpus.store graphPath graph).run disk = (.error fault, ready)) ∨
        ∃ place, ready.CanWrite (corpus.resolve graphPath) place ∧
          (corpus.store graphPath graph).run disk =
            (.ok (), ready.put place (.file (.bytes graph.toRecord)))) := by
  rw [store, prepare, writeRecord]
  cases parentPath? (corpus.resolve graphPath) with
  | none => exact ⟨disk, Disk.GrowsOff.refl ∅ disk, OnDisk.run_change_write _ _ _ disk⟩
  | some parent =>
      obtain ⟨ready, hgrows, hmade⟩ := OnDisk.exists_run_makeDirectories parent disk
      refine ⟨ready, hgrows, ?_⟩
      rcases hmade with ⟨fault, hfault⟩ | hmade
      · exact .inl ⟨fault, run_bind_of_error hfault⟩
      · simp only [run_bind_of_ok hmade]
        exact OnDisk.run_change_write _ _ _ ready

theorem growsOff_of_run_store_eq_error {fault : Fault}
    (hrun : (corpus.store graphPath graph).run disk = (.error fault, other)) :
    Disk.GrowsOff ∅ disk other := by
  obtain ⟨ready, hgrows, ⟨_, hfault⟩ | ⟨place, _, hdone⟩⟩ :=
    exists_run_store corpus graphPath graph disk
  · rw [hrun] at hfault
    injection hfault with _ hready
    exact hready ▸ hgrows
  · rw [hrun] at hdone
    injection hdone with houtcome
    cases houtcome

/-- A record that is stored is the only file that has changed. -/
theorem holds_of_run_store_eq_ok {done : Unit}
    (hrun : (corpus.store graphPath graph).run disk = (.ok done, other)) :
    corpus.Holds other graphPath graph ∧ ∃ place,
      other.locate (corpus.resolve graphPath) = .ok place ∧
        Disk.GrowsOff {place} disk other := by
  obtain ⟨ready, hgrows, ⟨_, hfault⟩ | ⟨place, hwrite, hdone⟩⟩ :=
    exists_run_store corpus graphPath graph disk
  · rw [hrun] at hfault
    injection hfault with houtcome
    cases houtcome
  · rw [hrun] at hdone
    injection hdone with _ hother
    subst hother
    have hput := Disk.growsOff_putFile hwrite.2 (.bytes graph.toRecord)
    have hlocate := hput.locate_eq_ok hwrite.1
    refine ⟨⟨place, Disk.lookup_eq_ok hlocate ?_⟩, place, hlocate,
      (hgrows.mono (Set.empty_subset _)).trans hput⟩
    exact Disk.find?_put_self ready _ (Disk.ne_nil_of_find?_ne_directory hwrite.2)

end Corpus

end LogCorpus
