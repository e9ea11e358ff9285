/-
Runs of the command that writes a modified corpus.

The command reads an index, excises its occurrences and then writes the new index, with
the rows of those that were written.  No failure of an occurrence stops it, but the
directory of the new index is only made for records.  So the command succeeds if and only
if the directory is there once the records are written, and is free for the index.
-/
import LogCorpus.Command.Execution
import LogCorpus.Proofs.Corpus.Excision
import LogCorpus.Proofs.Occurrence.Index
import LogCorpus.Proofs.Storage.Joining

namespace LogCorpus

/-! ### Index files -/

theorem exists_parseIndex_of_loadIndex {path : String} {disk : Disk}
    {occurrences : List Occurrence} (hload : loadIndex path disk = .ok occurrences) :
    ∃ bytes, parseIndex bytes = .ok occurrences := by
  obtain ⟨_, _, hload⟩ := exists_of_bind_eq_ok hload
  obtain ⟨_, _, hload⟩ := exists_of_bind_eq_ok hload
  rw [readIndex] at hload
  obtain ⟨start, _, hload⟩ := exists_of_bind_eq_ok hload
  split at hload
  · exact ⟨start, hload⟩
  · obtain ⟨bytes, _, hparse⟩ := exists_of_bind_eq_ok hload
    exact ⟨bytes, hparse⟩

/-- An index that is written is read back. -/
theorem exists_run_writeIndex_eq_ok {disk : Disk} {path : String} {place : Location}
    (hwrite : disk.CanWrite path place) (occurrences : List Occurrence) :
    ∃ final bytes, (writeIndex path occurrences).run disk = (.ok (), final) ∧
      final.read path = .ok bytes ∧
        parseIndex bytes = .ok (occurrences.map Occurrence.indexed) := by
  have hput := Disk.growsOff_putFile hwrite.2 (.bytes (utf8 (renderIndex occurrences)))
  have hfind := Disk.find?_put_self disk
    (.file (.bytes (utf8 (renderIndex occurrences))))
    (Disk.ne_nil_of_find?_ne_directory hwrite.2)
  exact ⟨_, _, OnDisk.run_change_of_ok (Disk.write_eq_ok hwrite _),
    Disk.read_eq_ok (hput.locate_eq_ok hwrite.1) hfind,
    parseIndex_renderIndex occurrences⟩

theorem exists_run_writeIndex_eq_error {disk : Disk} {path : String}
    (hwrite : ¬ ∃ place, disk.CanWrite path place) (occurrences : List Occurrence) :
    ∃ cause : DiskFault, (writeIndex path occurrences).run disk =
      (.error (cause.toFault s!"Cannot write index '{path}'"), disk) := by
  cases hchange : disk.write path (utf8 (renderIndex occurrences)) with
  | error cause => exact ⟨cause, OnDisk.run_change_of_error hchange⟩
  | ok changed =>
      obtain ⟨place, hplace, _⟩ := Disk.canWrite_of_write_eq_ok hchange
      exact absurd ⟨place, hplace⟩ hwrite

namespace Corpus.Excises

variable {source target : Corpus} {place : Nat} {disk after : Disk}
  {items : List (Occurrence × String)} {written : List (Occurrence × Occurrence)}
  {failures : List ItemFailure}
  (hrun : Excises source target place disk items written failures after)
include hrun

/-- An index keeps all of the rows of occurrences that have no lines. -/
theorem map_indexed_rows (hlines : ∀ item ∈ items, item.1.line = none) :
    (written.map Prod.snd).map Occurrence.indexed = written.map Prod.snd := by
  rw [List.map_map]
  apply List.map_congr_left
  rintro ⟨occurrence, row⟩ hentry
  obtain ⟨destination, hitem, rfl⟩ := hrun.exists_item hentry
  have hline := hlines _ hitem
  change occurrence.line = none at hline
  simp only [Function.comp_apply, Occurrence.indexed, Occurrence.moveTo, hline]

/-- The root of the target is a directory if it was one before, or if a row has a
relative path. -/
theorem isDirectory_root (htarget : ¬ target.root.isEmpty)
    (hroot : disk.isDirectory target.root ∨
      ∃ entry ∈ written, isAbsolute entry.2.graphPath = false) :
    after.isDirectory target.root := by
  rcases hroot with hdirectory | ⟨entry, hentry, hpath⟩
  · exact hrun.growsOff.isDirectory hdirectory
  · obtain ⟨_, hlocate⟩ := hrun.exists_locate_eq_ok hentry
    obtain ⟨root, hlookup, _⟩ :=
      Disk.exists_directory_of_locate_joinPath htarget hpath hlocate
    exact Disk.isDirectory_iff.mpr ⟨root, hlookup⟩

end Corpus.Excises

namespace Invocation

/-- What is printed about a modified corpus. -/
def excisionText (invocation : Invocation) (target output : String) (report : Report) :
    String :=
  invocation.display
    (.ofMembers [
      ("corpus", .text target),
      ("index", .text output),
      ("report", report.toJson)])
    (report.lines ++ [s!"Index written to {output}"])

/-- Once the index and the corpus are found, all that can fail is the new index. -/
theorem run_runExcise (invocation : Invocation) {indexFile location target root : String}
    {disk after : Disk} {occurrences rows : List Occurrence} {report : Report}
    (hindex : loadIndex indexFile disk = .ok occurrences)
    (hsource : directoryPath location disk = .ok root)
    (hexcise : (Corpus.exciseAll ⟨root⟩ ⟨target⟩ occurrences).run disk =
      (.ok (rows, report), after)) :
    (invocation.runExcise indexFile location target none).run disk =
      (writeIndex (joinPath target "index.json") rows >>= fun _ =>
        pure (invocation.excisionText target (joinPath target "index.json") report)).run
          after := by
  rw [runExcise, run_bind_of_ok (OnDisk.run_look_of_eq hindex),
    run_bind_of_ok (OnDisk.run_look_of_eq hsource), run_bind_of_ok hexcise]
  rfl

/-- Where the index and the corpus can be read, every occurrence is written or fails, and
what the command comes to depends on the directory alone in which the new index belongs.
If that is a directory at the end, and its `index.json` is none, then the command succeeds,
and the new index has the rows of the occurrences that are written, in their order.  If
not, it fails on the new index, with the records written.  The directory is there at the
end if it was there before, or if a record with a relative path is written.  It is not made
if no graph can be excised. -/
theorem runExcise_outcome (invocation : Invocation)
    {indexFile location target root : String} {disk : Disk} {occurrences : List Occurrence}
    (hindex : loadIndex indexFile disk = .ok occurrences)
    (hsource : directoryPath location disk = .ok root) (htarget : ¬ target.isEmpty)
    (hgoal : ∃ place, disk.goal (joinPath target "index.json") = .ok place) :
    let source : Corpus := ⟨root⟩
    let output := joinPath target "index.json"
    let after := source.excisedDisk ⟨target⟩ occurrences disk
    let outcome := (invocation.runExcise indexFile location target none).run disk
    ∃ written report,
      (source.exciseAll ⟨target⟩ occurrences).run disk =
          (.ok (written.map Prod.snd, report), after) ∧
        Corpus.Excises source ⟨target⟩ 0 disk (Corpus.withDestinations occurrences) written
          report.failures after ∧
        (written.map Prod.fst).Sublist occurrences ∧
        report.total = occurrences.length ∧
        report.succeeded = written.length ∧
        report.succeeded + report.failures.length = report.total ∧
        (after.isDirectory target → ¬ after.isDirectory output →
          ∃ final bytes,
            outcome = (.ok (invocation.excisionText target output report), final) ∧
              final.read output = .ok bytes ∧
              parseIndex bytes = .ok (written.map Prod.snd)) ∧
        (¬ after.isDirectory target ∨ after.isDirectory output →
          ∃ cause : DiskFault,
            outcome = (.error (cause.toFault s!"Cannot write index '{output}'"), after)) ∧
        (disk.isDirectory target ∨
            (∃ entry ∈ written, isAbsolute entry.2.graphPath = false) →
          after.isDirectory target) ∧
        ((∀ occurrence ∈ occurrences, ∃ fault,
            source.exciseOne occurrence disk = .error fault) →
          written = [] ∧ after = disk) := by
  intro source output after outcome
  obtain ⟨written, report, hall, hexcises, htotal, hsucceeded, hsum⟩ :=
    source.exists_run_exciseAll ⟨target⟩ occurrences disk
  have hrun : outcome = _ := invocation.run_runExcise hindex hsource hall
  -- the index is written after the records, on a disk that leads to the same places
  obtain ⟨place, hgoal⟩ := hgoal
  have hgoalAfter : after.goal output = .ok place :=
    (Disk.goal_congr hexcises.growsOff.working_eq output).trans hgoal
  have hname : IsEntryName "index.json" := by
    refine ⟨?_, ?_, ?_, ?_⟩ <;> decide
  have hcan := Disk.exists_canWrite_joinPath_iff htarget hname hgoalAfter
  refine ⟨written, report, hall, hexcises, hexcises.sublist_occurrences, htotal, hsucceeded,
    hsum, ?_, ?_, hexcises.isDirectory_root htarget, fun hfaults => ?_⟩
  · intro hdirectory hfree
    obtain ⟨_, hwrite⟩ := hcan.mpr ⟨hdirectory, hfree⟩
    obtain ⟨final, bytes, hdone, hread, hparse⟩ :=
      exists_run_writeIndex_eq_ok hwrite (written.map Prod.snd)
    obtain ⟨_, hrows⟩ := exists_parseIndex_of_loadIndex hindex
    rw [hexcises.map_indexed_rows fun item hitem =>
      line_eq_none_of_parseIndex hrows (Corpus.fst_mem_of_withDestinations hitem)] at hparse
    refine ⟨final, bytes, ?_, hread, hparse⟩
    rw [hrun, run_bind_of_ok hdone]
    rfl
  · intro hblocked
    have hwrite : ¬ ∃ place, after.CanWrite output place := by
      rw [hcan, not_and_or, not_not]
      exact hblocked
    obtain ⟨cause, hfault⟩ := exists_run_writeIndex_eq_error hwrite (written.map Prod.snd)
    exact ⟨cause, by rw [hrun, run_bind_of_error hfault]⟩
  · exact hexcises.eq_of_unread fun item hitem =>
      hfaults item.1 (Corpus.fst_mem_of_withDestinations hitem)

/-- Two occurrences, one in a record that is missing: the directory of the new index is
made for the other one's record, and the index has its row. -/
theorem runExcise_outcome_of_two :
    let word (id : UInt64) (contents : String) : Node :=
      ⟨id, .token, contents, 3, 3, 0, 1⟩
    let graph : Graph := ⟨"A.java", [word 1 "log", word 2 ";"], [⟨1, 2, .nextToken⟩]⟩
    let found (path : String) : Occurrence := ⟨path, .info, "m", some 1, none⟩
    let occurrences : List Occurrence := [found "B.proto", found "A.proto"]
    let entries : List (Location × Entry) := [(["raw"], .directory),
      (["raw", "A.proto"], .file (.bytes graph.toRecord)),
      (["index.json"], .file (.bytes (utf8 (renderIndex occurrences))))]
    let disk : Disk := { entries := .ofList entries }
    let invocation : Invocation := ⟨.excise "index.json" "raw" "new" none, none, false, false⟩
    let row : Occurrence := ⟨"A1.proto", .info, "m", none, none⟩
    loadIndex "index.json" disk = .ok occurrences ∧
      directoryPath "raw" disk = .ok "/raw" ∧
      disk.goal (joinPath "new" "index.json") = .ok ["new", "index.json"] ∧
      ∃ printed final bytes,
        (invocation.runExcise "index.json" "raw" "new" none).run disk =
            (.ok printed, final) ∧
          final.read (joinPath "new" "index.json") = .ok bytes ∧
          parseIndex bytes = .ok [row] := by
  intro word graph found occurrences entries disk invocation row
  have hindex : loadIndex "index.json" disk = .ok occurrences := by
    decide +kernel
  have hsource : directoryPath "raw" disk = .ok "/raw" := by
    decide +kernel
  have hgoal : disk.goal (joinPath "new" "index.json") = .ok ["new", "index.json"] := by
    decide +kernel
  have hrows : ((Corpus.exciseAll ⟨"/raw"⟩ ⟨"new"⟩ occurrences).run disk).1.map Prod.fst =
      .ok [row] := by
    decide +kernel
  have hplaces : (Corpus.excisedDisk ⟨"/raw"⟩ ⟨"new"⟩ occurrences disk).isDirectory
        "new" ∧
      ¬ (Corpus.excisedDisk ⟨"/raw"⟩ ⟨"new"⟩ occurrences disk).isDirectory
        (joinPath "new" "index.json") := by
    decide +kernel
  obtain ⟨written, report, hall, _, _, _, _, _, hdone, _⟩ :=
    invocation.runExcise_outcome hindex hsource (by decide) ⟨_, hgoal⟩
  obtain ⟨final, bytes, hrun, hread, hparse⟩ := hdone hplaces.1 hplaces.2
  have hwritten : written.map Prod.snd = [row] := by
    rw [hall] at hrows
    exact Except.ok.inj hrows
  exact ⟨hindex, hsource, hgoal, _, final, bytes, hrun, hread, hwritten ▸ hparse⟩

/-- The only occurrence is in a record that is missing, and so is the directory of the new
index.  The command fails, and the disk has no such directory afterwards. -/
theorem runExcise_stopped_by_failures :
    let occurrences : List Occurrence := [⟨"Gone.proto", .info, "m", some 1, none⟩]
    let entries : List (Location × Entry) := [(["corpus"], .directory),
      (["index.json"], .file (.bytes (utf8 (renderIndex occurrences))))]
    let disk : Disk := { entries := .ofList entries }
    let invocation : Invocation := ⟨.excise "index.json" "corpus" "out" none, none, false, false⟩
    let outcome := (invocation.runExcise "index.json" "corpus" "out" none).run disk
    loadIndex "index.json" disk = .ok occurrences ∧
      directoryPath "corpus" disk = .ok "/corpus" ∧
      disk.lookup "out" = .error .notFound ∧
      disk.goal (joinPath "out" "index.json") = .ok ["out", "index.json"] ∧
      outcome.1 = .error (DiskFault.notFound.toFault "Cannot write index 'out/index.json'") ∧
      outcome.2.lookup "out" = .error .notFound := by
  decide +kernel

end Invocation

end LogCorpus
