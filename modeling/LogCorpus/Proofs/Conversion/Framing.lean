/-
One line for each example.

A part that was written is read back example by example: its text falls into one line
for each of them, in their order, and each line denotes its example.  Of the two files of
a compressed part only the packed one is left.
-/
import LogCorpus.Proofs.Conversion.Dataset
import LogCorpus.Proofs.Training.RoundTrip

namespace LogCorpus

namespace Dataset

variable {dataset : Dataset} {disk after : Disk} {part : Part} {text : String}

/-- The text of a part comes from the bytes of its file. -/
theorem exists_read_of_text?_eq_some (htext : dataset.text? part disk = some text) :
    ∃ bytes, disk.read (dataset.finalPath part) = .ok bytes ∧
      dataset.unpack? bytes = some (utf8 text) := by
  obtain ⟨bytes, hbytes, hrest⟩ := Option.bind_eq_some_iff.mp htext
  obtain ⟨unpacked, hunpacked, hdecoded⟩ := Option.bind_eq_some_iff.mp hrest
  rw [utf8_of_ofUtf8? hdecoded]
  cases hread : disk.read (dataset.finalPath part) with
  | error fault =>
      rw [hread] at hbytes
      cases hbytes
  | ok found =>
      rw [hread] at hbytes
      cases hbytes
      exact ⟨bytes, rfl, hunpacked⟩

/-- Where the packed file of a part is, its plain file is no more. -/
theorem Holds.lookup_plainPath (hcompress : dataset.compress = true)
    (hwritable : dataset.Writable after part) (hholds : dataset.Holds after part text) :
    after.lookup (dataset.plainPath part) = .error .notFound := by
  obtain ⟨plain, hplain, _⟩ := hwritable (dataset.plainPath part) List.mem_cons_self
  have hapart : after.locate (dataset.finalPath part) ≠ .ok plain := by
    rw [finalPath, if_pos hcompress]
    exact fun hpacked => packed_ne_plain hplain hpacked rfl
  have hnone : after.find? plain = none :=
    hholds.find?_eq_none plain (mem_places.mpr ⟨_, List.mem_cons_self, hplain⟩) hapart
  rw [Disk.lookup, hplain]
  simp only [bind, Except.bind, hnone]
  rfl

/-- Examples that are written are read back.  The file at the path that is returned has a
text, packed or not, in which every line is ended, and the lines denote the examples one
by one.  Of a packed part the plain file is gone. -/
theorem examples_of_writePart {examples : List TrainingExample} {output : String}
    (hexamples : ∀ training ∈ examples, training.Representable)
    (hrun : (dataset.writePart part examples).run disk = (.ok output, after)) :
    ∃ (bytes : List UInt8) (text : String) (lines : List String),
      output = dataset.finalPath part ∧
        after.read output = .ok bytes ∧
        (if dataset.compress then gunzip? bytes else some bytes) = some (utf8 text) ∧
        (segments '\n' text.toList).map String.ofList = lines ++ [""] ∧
        lines.map TrainingExample.parse? = examples.map some ∧
        (dataset.compress = true →
          after.lookup (dataset.plainPath part) = .error .notFound) := by
  have hwritable := writable_of_run_writePart hrun
  obtain ⟨changed, hwritten, hagrees, hholds⟩ := hwritable.exists_run_writePart examples
  rw [hwritten] at hrun
  injection hrun with houtput hchanged
  cases houtput
  subst hchanged
  obtain ⟨bytes, hread, hunpacked⟩ := exists_read_of_text?_eq_some hholds.text?_eq
  have hlines : (examples.map TrainingExample.line).map TrainingExample.parse? =
      examples.map some := by
    rw [List.map_map]
    apply List.map_congr_left
    exact fun training htraining => (hexamples training htraining).parse?_line
  refine ⟨bytes, _, _, rfl, hread, hunpacked, segments_renderLines examples, hlines, ?_⟩
  exact fun hcompress =>
    hholds.lookup_plainPath hcompress (hwritable.of_agreesOff hagrees)

/-- Labels and a target with line ends, quotes and control characters, the largest place,
a kind without pairs and the least sentinel, packed. -/
theorem examples_of_writePart_of_escapes :
    let dataset : Dataset := ⟨"/data", true⟩
    let entries : List (Location × Entry) := [(["data"], .directory)]
    let disk : Disk := { entries := .ofList entries }
    let training : TrainingExample := {
      nodeLabels := ["a\n\"b\"\\", "\x00\x1f\x7f", "é😀\u2028"]
      backbone := [0, 18446744073709551615]
      edges := [(.nextToken, [(0, 1), (2, 0)]), (.comment, [])]
      target := ["\r\n", ""]
      logNode := -9223372036854775808 }
    ∃ (after : Disk) (bytes : List UInt8) (text : String) (lines : List String),
      (dataset.writePart .train [training, training]).run disk =
          (.ok "/data/trainLogs.jsonl.gz", after) ∧
        after.read "/data/trainLogs.jsonl.gz" = .ok bytes ∧
        gunzip? bytes = some (utf8 text) ∧
        (segments '\n' text.toList).map String.ofList = lines ++ [""] ∧
        lines.map TrainingExample.parse? = [some training, some training] ∧
        after.lookup "/data/trainLogs.jsonl" = .error .notFound := by
  intro dataset entries disk training
  have hplain : dataset.plainPath .train = "/data/trainLogs.jsonl" := by
    decide +kernel
  have hfinal : dataset.finalPath .train = "/data/trainLogs.jsonl.gz" := by
    decide +kernel
  have hplaces : ∀ path ∈ dataset.paths .train, ∃ name ∈ Part.train.names,
      disk.locate path = .ok ["data", name] ∧ disk.find? ["data", name] = none := by
    decide +kernel
  have hwritable : dataset.Writable disk .train := by
    intro path hpath
    obtain ⟨name, _, hlocate, hnone⟩ := hplaces path hpath
    exact ⟨["data", name], hlocate, by rw [hnone]; exact nofun⟩
  have hexamples : ∀ other ∈ [training, training], other.Representable := by
    decide +kernel
  obtain ⟨after, hrun, _⟩ := hwritable.exists_run_writePart [training, training]
  rw [hfinal] at hrun
  obtain ⟨bytes, text, lines, _, hread, hunpacked, hpieces, hlines, hpacked⟩ :=
    examples_of_writePart hexamples hrun
  have hgone := hpacked rfl
  rw [hplain] at hgone
  exact ⟨after, bytes, text, lines, hrun, hread, hunpacked, hpieces, hlines, hgone⟩

end Dataset

end LogCorpus
