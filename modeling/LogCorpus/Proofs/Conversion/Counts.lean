/-
The counts of a run.

A run counts its occurrences five times: in its statistics, in the sizes of its parts,
in the batches of the parts, in the report of all batches and by the reasons of the
failures.  Every occurrence of a part gives an example or a failure, so all counts
follow from the sizes of the parts, and these are the sizes of a partition.
-/
import LogCorpus.Proofs.Conversion.Delivery
import LogCorpus.Proofs.Conversion.Run
import LogCorpus.Proofs.Occurrence.Statistics
import LogCorpus.Proofs.Partition.Conservation
import LogCorpus.Proofs.Report

namespace LogCorpus

/-! ### One batch -/

/-- The failures of occurrences that are converted on some disk, with their places. -/
def Converter.failures (converter : Converter) (disk : Disk)
    (occurrences : List Occurrence) : List ItemFailure :=
  occurrences.zipIdx.filterMap (itemFailure? (converter.convert disk))

namespace Converter

variable (converter : Converter) (disk : Disk) (occurrences : List Occurrence)

theorem failures_convertAll :
    (converter.convertAll disk occurrences).report.failures =
      converter.failures disk occurrences := by
  rw [report_convertAll]
  exact failuresFrom_zip_map (converter.convert disk) occurrences 0

theorem total_convertAll :
    (converter.convertAll disk occurrences).report.total = occurrences.length := by
  simp [report_convertAll, Report.ofOutcomes]

/-- Every success is an example. -/
theorem succeeded_convertAll :
    (converter.convertAll disk occurrences).report.succeeded =
      (converter.convertAll disk occurrences).examples.length := by
  rw [report_convertAll, examples_convertAll, Report.ofOutcomes, countP_zip_map,
    List.length_filterMap_eq_countP]
  apply List.countP_congr
  intro occurrence _
  cases converter.convert disk occurrence <;> simp [Except.isOk, Except.toBool, Except.toOption]

/-- Every occurrence gives an example or a failure. -/
theorem length_examples_add_failures :
    (converter.convertAll disk occurrences).examples.length +
        (converter.failures disk occurrences).length = occurrences.length := by
  rw [← succeeded_convertAll, ← failures_convertAll]
  exact (report_convertAll converter disk occurrences ▸
    Report.succeeded_add_failures _).trans (converter.total_convertAll disk occurrences)

/-- A failure has the place of its occurrence. -/
theorem index_itemFailure? {convert : Occurrence → ConversionOutcome}
    {item : Occurrence × Nat} {failure : ItemFailure}
    (hfailure : itemFailure? convert item = some failure) : failure.index = item.2 := by
  rw [itemFailure?] at hfailure
  split at hfailure
  · rw [← Option.some.inj hfailure]
  · cases hfailure

/-- The places of the failures ascend. -/
theorem failures_ascending : (converter.failures disk occurrences).Pairwise
    fun first second => first.index < second.index := by
  have hplaces : occurrences.zipIdx.Pairwise fun first second => first.2 < second.2 := by
    rw [← List.pairwise_map (R := (· < ·)), List.zipIdx_map_snd]
    exact List.pairwise_lt_range'
  refine hplaces.filterMap _ ?_
  intro first second hlt failure hfailure other hother
  rwa [index_itemFailure? hfailure, index_itemFailure? hother]

theorem index_lt_of_mem_failures {failure : ItemFailure}
    (hfailure : failure ∈ converter.failures disk occurrences) :
    failure.index < occurrences.length := by
  obtain ⟨item, hitem, hfails⟩ := List.mem_filterMap.mp hfailure
  rw [index_itemFailure? hfails]
  exact List.snd_lt_of_mem_zipIdx hitem

end Converter

/-! ### The parts of a run -/

section

variable {converter : Converter} {dataset : Dataset}

/-- Every part is converted on some disk, the one that the parts before it leave. -/
theorem exists_disks_of_run_convertParts {items : Part → List Occurrence}
    {parts : List Part} (hparts : parts.Nodup) {disk after : Disk}
    {outcomes : List (PartSummary × Report)}
    (hrun : (parts.mapM fun part =>
      convertPart converter dataset part (items part)).run disk =
        (.ok outcomes, after)) :
    ∃ disks : Part → Disk, outcomes = parts.map fun part =>
      partOutcome converter dataset part (items part) (disks part) := by
  induction parts generalizing disk after outcomes with
  | nil =>
      injection hrun with hnil
      injection hnil with hnil
      exact ⟨fun _ => disk, hnil.symm⟩
  | cons head tail ih =>
      obtain ⟨hhead, htail⟩ := List.nodup_cons.mp hparts
      obtain ⟨first, others, middle, rfl, hfirst, hothers⟩ :=
        exists_of_run_mapM_cons_eq_ok hrun
      obtain ⟨disks, hdisks⟩ := ih htail hothers
      refine ⟨Function.update disks head disk, ?_⟩
      rw [List.map_cons, Function.update_self,
        eq_partOutcome_of_run_convertPart hfirst, hdisks]
      congr 1
      apply List.map_congr_left
      intro part hpart
      have hother : part ≠ head := fun hsame => hhead (hsame ▸ hpart)
      rw [Function.update_of_ne hother]

end

theorem Partition.sum_lengths {parts : Partition α} {items : List α}
    (hparts : (parts.train ++ (parts.validation ++ parts.test)).Perm items) :
    (Part.all.map fun part => (parts.items part).length).sum = items.length := by
  rw [← hparts.length_eq]
  simp [Part.all, Partition.items]

/-- The summary of a run is made of its partition and of the disks on which its parts
are converted. -/
theorem exists_disks_of_runConversion {config : Configuration} {source : WordSource σ}
    {state : σ} {tokenizer : Tokenizer} {corpus : Corpus} {occurrences : List Occurrence}
    {directory : String} {disk after : Disk} {summary : RunSummary}
    (hrun : (runConversion config source state tokenizer corpus occurrences
      directory).run disk = (.ok summary, after)) :
    ∃ (parts : Partition Occurrence) (rest : σ) (disks : Part → Disk),
      partition Occurrence.group source (selectOccurrences config occurrences)
          config.trainFraction config.validationFraction state = .ok (parts, rest) ∧
        let outcome part := partOutcome (config.converter corpus tokenizer)
          (config.dataset directory) part (parts.items part) (disks part)
        summary = ⟨.ofOccurrences (selectOccurrences config occurrences),
          Part.all.map fun part => (outcome part).1,
          (Part.all.map fun part => (outcome part).2).foldl Report.merge {}⟩ := by
  rw [runConversion] at hrun
  obtain ⟨⟨statistics, parts⟩, first, hplan, hrest⟩ := exists_of_run_bind_eq_ok hrun
  obtain ⟨_, ready, _, hconverted⟩ := exists_of_run_bind_eq_ok hrest
  obtain ⟨outcomes, last, hconvert, hdone⟩ := exists_of_run_bind_eq_ok hconverted
  have hall : Part.all.Nodup := by
    decide
  obtain ⟨disks, hdisks⟩ := exists_disks_of_run_convertParts hall hconvert
  have hplan := congrArg Prod.fst hplan
  rw [OnDisk.run_look] at hplan
  obtain ⟨_, _, hplan⟩ := exists_of_bind_eq_ok hplan
  obtain ⟨_, _, hplan⟩ := exists_of_bind_eq_ok hplan
  obtain ⟨⟨shuffled, rest⟩, hpartition, hplan⟩ := exists_of_bind_eq_ok hplan
  obtain ⟨rfl, rfl⟩ := Prod.mk.inj (Except.ok.inj hplan)
  refine ⟨shuffled, rest, disks, hpartition, ?_⟩
  injection hdone with hdone
  injection hdone with hdone
  rw [← hdone, hdisks, List.map_map, List.map_map]
  rfl

/-- The counts of a run agree.  Statistics, severities, parts and report count the
occurrences that are selected; the report counts the examples that are written, and its
failures and their reasons the rest.  The failures are those of one part after the other:
of each part as many as examples are missing, at distinct places in the part. -/
theorem counts_of_runConversion {config : Configuration} {source : WordSource σ}
    {state : σ} {tokenizer : Tokenizer} {corpus : Corpus} {occurrences : List Occurrence}
    {directory : String} {disk after : Disk} {summary : RunSummary}
    (hrun : (runConversion config source state tokenizer corpus occurrences
      directory).run disk = (.ok summary, after)) :
    let selected := selectOccurrences config occurrences
    let report := summary.report
    summary.statistics.total = selected.length ∧
      (summary.statistics.perSeverity.map Prod.snd).sum = selected.length ∧
      (summary.parts.map PartSummary.size).sum = selected.length ∧
      report.total = selected.length ∧
      report.succeeded = (summary.parts.map PartSummary.written).sum ∧
      report.total = report.succeeded + report.failures.length ∧
      report.total = report.succeeded + (report.reasons.map Prod.snd).sum ∧
      ∃ (parts : Partition Occurrence) (rest : σ) (disks : Part → Disk),
        partition Occurrence.group source selected config.trainFraction
            config.validationFraction state = .ok (parts, rest) ∧
          let failures part :=
            (config.converter corpus tokenizer).failures (disks part) (parts.items part)
          summary.parts.map PartSummary.part = Part.all ∧
            report.failures = Part.all.flatMap failures ∧
            ∀ told ∈ summary.parts,
              told.size = (parts.items told.part).length ∧
                told.written ≤ told.size ∧
                told.size - told.written = (failures told.part).length ∧
                ((failures told.part).map ItemFailure.index).Nodup ∧
                ∀ failure ∈ failures told.part, failure.index < told.size := by
  intro selected report
  obtain ⟨parts, rest, disks, hpartition, hsummary⟩ := exists_disks_of_runConversion hrun
  let converter := config.converter corpus tokenizer
  let batch part := converter.convertAll (disks part) (parts.items part)
  have hsizes : (Part.all.map fun part => (parts.items part).length).sum =
      selected.length :=
    Partition.sum_lengths (append_perm_of_partition_eq_ok hpartition)
  have hreport : report =
      { total := (Part.all.map fun part => (batch part).report.total).sum
        succeeded := (Part.all.map fun part => (batch part).report.succeeded).sum
        failures := Part.all.flatMap fun part => (batch part).report.failures } := by
    rw [show report = summary.report from rfl, hsummary, Report.foldl_merge_eq]
    simp only [List.map_map, List.flatMap_map, Nat.zero_add, List.nil_append]
    rfl
  have htold : summary.parts = Part.all.map fun part => (partOutcome converter
      (config.dataset directory) part (parts.items part) (disks part)).1 := by
    rw [hsummary]
  have htotal : report.total = selected.length := by
    simp only [hreport, batch, Converter.total_convertAll]
    exact hsizes
  have hsucceeded : report.succeeded = (summary.parts.map PartSummary.written).sum := by
    simp only [hreport, batch, Converter.succeeded_convertAll, htold, List.map_map]
    rfl
  have hfailures : report.total = report.succeeded + report.failures.length := by
    simp only [hreport, List.length_flatMap, ← List.sum_map_add]
    congr 1
    apply List.map_congr_left
    intro part _
    rw [Converter.report_convertAll]
    exact (Report.succeeded_add_failures _).symm
  refine ⟨?_, ?_, ?_, htotal, hsucceeded, hfailures, ?_, parts, rest, disks, hpartition,
    ?_, ?_, ?_⟩
  · rw [hsummary]
    rfl
  · rw [hsummary]
    exact Statistics.sum_perSeverity selected
  · rw [htold, List.map_map]
    exact hsizes
  · rw [Report.sum_reasons]
    exact hfailures
  · rw [htold, List.map_map]
    rfl
  · simp only [hreport, batch, Converter.failures_convertAll]
    rfl
  · intro told hmem
    rw [htold] at hmem
    obtain ⟨part, _, rfl⟩ := List.mem_map.mp hmem
    have hitems := converter.length_examples_add_failures (disks part) (parts.items part)
    have hascending := converter.failures_ascending (disks part) (parts.items part)
    exact ⟨rfl, Nat.le.intro hitems, Nat.sub_eq_of_eq_add' hitems.symm,
      List.pairwise_map.mpr (hascending.imp Nat.ne_of_lt),
      fun failure => converter.index_lt_of_mem_failures _ _⟩

/-- Four occurrences in three parts: one has its example, one has a root that is missing,
one a damaged record and one no record. -/
theorem counts_of_runConversion_of_four :
    let graph : Graph := ⟨"A.java",
      [⟨1, .token, "log", 1, 1, 0, 3⟩, ⟨2, .token, ";", 1, 1, 3, 4⟩], []⟩
    let entries : List (Location × Entry) := [(["corpus"], .directory),
      (["corpus", "A.proto"], .file (.bytes graph.toRecord)),
      (["corpus", "B.proto"], .file (.bytes [255]))]
    let disk : Disk := { entries := .ofList entries }
    let occurrences : List Occurrence := [⟨"A.proto", .info, "", some 1, none⟩,
      ⟨"A.proto", .warn, "", some 3, none⟩, ⟨"B.proto", .warn, "", some 1, none⟩,
      ⟨"C.proto", .warn, "", some 1, none⟩]
    let config : Configuration := { trainFraction := 0.75, validationFraction := 0.5 }
    let zeros : WordSource Unit := fun _ => (0, ())
    ∃ (summary : RunSummary) (after : Disk),
      (runConversion config zeros () wordTokens ⟨"/corpus"⟩ occurrences "/out").run disk =
          (.ok summary, after) ∧
        summary.parts.map PartSummary.size = [2, 1, 1] ∧
        summary.parts.map PartSummary.written = [1, 0, 0] ∧
        summary.statistics.total = 4 ∧ summary.report.total = 4 ∧
        summary.report.succeeded = 1 ∧ summary.report.failures.length = 3 ∧
        (summary.report.reasons.map Prod.snd).sum = 3 := by
  intro graph entries disk occurrences config zeros
  let run := (runConversion config zeros () wordTokens ⟨"/corpus"⟩ occurrences
    "/out").run disk
  have hparts : run.1.toOption.map (fun summary =>
      (summary.parts.map PartSummary.size, summary.parts.map PartSummary.written)) =
        some ([2, 1, 1], [1, 0, 0]) := by
    decide +kernel
  obtain ⟨summary, hsummary, htold⟩ := Option.map_eq_some_iff.mp hparts
  obtain ⟨hsizes, hwritten⟩ := Prod.mk.inj htold
  have hrun : run = (.ok summary, run.2) := by
    cases houtcome : run.1 with
    | error fault =>
        rw [houtcome] at hsummary
        cases hsummary
    | ok found =>
        rw [houtcome] at hsummary
        cases hsummary
        exact Prod.ext houtcome rfl
  obtain ⟨hstatistics, _, _, htotal, hsucceeded, hfailures, hreasons, _⟩ :=
    counts_of_runConversion hrun
  rw [hwritten] at hsucceeded
  have hone : summary.report.succeeded = 1 := hsucceeded
  have hfour : summary.report.total = 4 := htotal
  exact ⟨summary, run.2, hrun, hsizes, hwritten, hstatistics, hfour, hone, by omega,
    by omega⟩

end LogCorpus
