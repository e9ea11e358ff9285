/-
What a conversion reads.

The only thing on the disk that a conversion looks at is what the path of its
record leads to.  Where that is the same, the outcome is the same, and where the
path leads to nothing there is no example.
-/
import LogCorpus.Conversion.Batch
import LogCorpus.Proofs.Storage.Growth

namespace LogCorpus

/-- A record is loaded alike where its path leads to the same. -/
theorem Corpus.load_congr {corpus : Corpus} {graphPath : String}
    {disk other : Disk}
    (hlookup : other.lookup (corpus.resolve graphPath) =
      disk.lookup (corpus.resolve graphPath)) :
    corpus.load graphPath other = corpus.load graphPath disk := by
  simp only [load, readRecordFile, Disk.size, Disk.readStart, Disk.read, hlookup]

theorem Corpus.load_of_lookup_eq_error {corpus : Corpus} {graphPath : String}
    {disk : Disk} {fault : DiskFault}
    (hlookup : disk.lookup (corpus.resolve graphPath) = .error fault) :
    ∃ cause, corpus.load graphPath disk = .error cause := by
  refine ⟨fault.toFault s!"Cannot open '{corpus.resolve graphPath}'", ?_⟩
  simp only [load, Disk.size, hlookup]
  rfl

namespace Converter

variable {converter : Converter} {disk other : Disk} {occurrence : Occurrence}

theorem convert_congr_of_load
    (hload : converter.corpus.load occurrence.graphPath other =
      converter.corpus.load occurrence.graphPath disk) :
    converter.convert other occurrence = converter.convert disk occurrence := by
  rw [convert, convert, hload]

theorem convert_congr
    (hlookup : other.lookup (converter.corpus.resolve occurrence.graphPath) =
      disk.lookup (converter.corpus.resolve occurrence.graphPath)) :
    converter.convert other occurrence = converter.convert disk occurrence :=
  convert_congr_of_load (Corpus.load_congr hlookup)

/-- The conversion of an occurrence whose record is loaded. -/
theorem convert_of_load {graph : Graph}
    (hload : converter.corpus.load occurrence.graphPath disk = .ok graph) :
    converter.convert disk occurrence =
      if converter.maxGraphNodes < graph.nodeCount then
        .error (.graphTooLarge graph.nodeCount converter.maxGraphNodes)
      else
        excised graph occurrence >>= fun after =>
          converter.projector.project after occurrence := by
  rw [convert, hload]
  by_cases hsize : converter.maxGraphNodes < graph.nodeCount
  · simp only [bind, Except.bind, if_pos hsize]
    rfl
  · simp only [bind, Except.bind, if_neg hsize]

/-- What a conversion that succeeds has come through. -/
theorem exists_of_convert_eq_ok {training : TrainingExample}
    (hconvert : converter.convert disk occurrence = .ok training) :
    ∃ graph after, converter.corpus.load occurrence.graphPath disk = .ok graph ∧
      excised graph occurrence = .ok after ∧
      converter.projector.project after occurrence = .ok training := by
  obtain ⟨graph, hload, _⟩ := exists_of_bind_eq_ok hconvert
  rw [convert_of_load hload] at hconvert
  split at hconvert
  · cases hconvert
  · obtain ⟨after, hexcised, hproject⟩ := exists_of_bind_eq_ok hconvert
    exact ⟨graph, after, hload, hexcised, hproject⟩

theorem toOption_convert_of_lookup_eq_error {fault : DiskFault}
    (hlookup : disk.lookup (converter.corpus.resolve occurrence.graphPath) =
      .error fault) :
    (converter.convert disk occurrence).toOption = none := by
  obtain ⟨cause, hload⟩ := Corpus.load_of_lookup_eq_error hlookup
  rw [convert, hload]
  rfl

/-- Disks that agree off some places give the same examples for records that lie
at none of these places. -/
theorem toOption_convert_of_agreesOff {places : List Location}
    (hagrees : Disk.AgreesOff places disk other)
    (hapart : ∀ place ∈ places,
      disk.locate (converter.corpus.resolve occurrence.graphPath) ≠ .ok place) :
    (converter.convert other occurrence).toOption =
      (converter.convert disk occurrence).toOption := by
  rcases hagrees.lookup_eq hapart with hsame | ⟨⟨fault, hleft⟩, cause, hright⟩
  · rw [convert_congr hsame]
  · rw [toOption_convert_of_lookup_eq_error hleft,
      toOption_convert_of_lookup_eq_error hright]

/-- A record that is there is converted alike when entries are added. -/
theorem convert_of_extends (hextends : Disk.Extends disk other)
    (hfile : disk.isFile (converter.corpus.resolve occurrence.graphPath) = true) :
    converter.convert other occurrence = converter.convert disk occurrence := by
  rw [Disk.isFile] at hfile
  cases hlookup : disk.lookup (converter.corpus.resolve occurrence.graphPath) with
  | error fault =>
      rw [hlookup] at hfile
      exact absurd hfile Bool.false_ne_true
  | ok found =>
      apply convert_congr
      rw [hlookup, hextends.lookup_eq_ok hlookup]

end Converter

end LogCorpus
