/-
What stops a run.

A run stops for a fault of its own only before it changes the disk, and a fault of
one occurrence goes into the report.  So whether a run succeeds is decided by its
checks and by whether its files can be written, not by the occurrences that fail.
-/
import LogCorpus.Proofs.Conversion.Faults
import LogCorpus.Proofs.Conversion.Run
import LogCorpus.Proofs.Corpus.Excision

namespace LogCorpus

namespace Report

/-- Every failure in the report concerns its item only. -/
def IsPerItem (report : Report) : Prop :=
  ∀ failure ∈ report.failures, failure.fault.isPerItem = true

/-- A failure of a report is the fault of an outcome. -/
theorem exists_of_mem_failuresFrom {outcomes : List (Occurrence × Except Fault α)}
    {place : Nat} {failure : ItemFailure}
    (hfailure : failure ∈ failuresFrom place outcomes) :
    ∃ entry ∈ outcomes, entry.2 = .error failure.fault := by
  induction outcomes generalizing place with
  | nil => exact absurd hfailure List.not_mem_nil
  | cons head tail ih =>
      obtain ⟨occurrence, outcome⟩ := head
      have htail {next : Nat} (hmem : failure ∈ failuresFrom next tail) :
          ∃ entry ∈ (occurrence, outcome) :: tail, entry.2 = .error failure.fault := by
        obtain ⟨entry, hentry, hfault⟩ := ih hmem
        exact ⟨entry, List.mem_cons_of_mem _ hentry, hfault⟩
      cases outcome with
      | ok value => exact htail hfailure
      | error fault =>
          rcases List.mem_cons.mp hfailure with rfl | hmem
          · exact ⟨_, List.mem_cons_self, rfl⟩
          · exact htail hmem

theorem isPerItem_ofOutcomes {outcomes : List (Occurrence × Except Fault α)}
    (houtcomes : ∀ entry ∈ outcomes, FailsPerItem entry.2) :
    (ofOutcomes outcomes).IsPerItem := by
  intro failure hfailure
  obtain ⟨entry, hentry, hfault⟩ := exists_of_mem_failuresFrom hfailure
  exact houtcomes entry hentry failure.fault hfault

theorem IsPerItem.merge {first second : Report} (hfirst : first.IsPerItem)
    (hsecond : second.IsPerItem) : (first.merge second).IsPerItem := by
  intro failure hfailure
  rcases List.mem_append.mp hfailure with hmem | hmem
  · exact hfirst failure hmem
  · exact hsecond failure hmem

theorem IsPerItem.foldl_merge {first : Report} (hfirst : first.IsPerItem)
    {reports : List Report} (hreports : ∀ report ∈ reports, report.IsPerItem) :
    (reports.foldl Report.merge first).IsPerItem := by
  induction reports generalizing first with
  | nil => exact hfirst
  | cons head tail ih =>
      exact ih (hfirst.merge (hreports head List.mem_cons_self))
        fun report hreport => hreports report (List.mem_cons_of_mem head hreport)

end Report

theorem Converter.isPerItem_report_convertAll (converter : Converter) (disk : Disk)
    (occurrences : List Occurrence) :
    (converter.convertAll disk occurrences).report.IsPerItem := by
  rw [report_convertAll]
  apply Report.isPerItem_ofOutcomes
  intro entry hentry
  have houtcome := (List.of_mem_zip hentry).2
  obtain ⟨occurrence, _, hconvert⟩ := List.mem_map.mp houtcome
  rw [← hconvert]
  exact converter.failsPerItem_convert disk occurrence

/-- Of the failures of an excised corpus each concerns its item only. -/
theorem Corpus.Excises.isPerItem {source target : Corpus} {place : Nat}
    {disk after : Disk} {items : List (Occurrence × String)}
    {written : List (Occurrence × Occurrence)} {failures : List ItemFailure}
    (hexcises : Excises source target place disk items written failures after) :
    ∀ failure ∈ failures, failure.fault.isPerItem = true := by
  induction hexcises with
  | done place disk => exact fun failure hfailure => absurd hfailure List.not_mem_nil
  | written _ _ _ ih => exact ih
  | unread hexcise _ ih =>
      rintro failure hfailure
      rcases List.mem_cons.mp hfailure with rfl | hmem
      · exact source.failsPerItem_exciseOne _ _ _ hexcise
      · exact ih failure hmem
  | unwritten _ hstore _ ih =>
      rintro failure hfailure
      rcases List.mem_cons.mp hfailure with rfl | hmem
      · exact target.failsPerItem_store _ _ _ _ (congrArg Prod.fst hstore)
      · exact ih failure hmem

section

variable {converter : Converter} {dataset : Dataset}

theorem failsPerItem_convertPart (converter : Converter) (dataset : Dataset)
    (part : Part) (occurrences : List Occurrence) :
    (convertPart converter dataset part occurrences).FailsPerItem := by
  rw [convertPart]
  refine (OnDisk.failsPerItem_look fun disk => failsPerItem_ok _).bind fun batch => ?_
  exact (dataset.failsPerItem_writePart part _).bind fun _ => OnDisk.failsPerItem_pure _

theorem isPerItem_of_run_convertPart {part : Part} {occurrences : List Occurrence}
    {disk after : Disk} {outcome : PartSummary × Report}
    (hrun : (convertPart converter dataset part occurrences).run disk =
      (.ok outcome, after)) : outcome.2.IsPerItem := by
  rw [eq_partOutcome_of_run_convertPart hrun]
  exact converter.isPerItem_report_convertAll disk occurrences

theorem isPerItem_of_run_convertParts {items : Part → List Occurrence}
    {parts : List Part} {disk after : Disk} {outcomes : List (PartSummary × Report)}
    (hrun : (parts.mapM fun part =>
      convertPart converter dataset part (items part)).run disk =
        (.ok outcomes, after)) :
    ∀ outcome ∈ outcomes, outcome.2.IsPerItem := by
  intro outcome houtcome
  obtain ⟨part, _, _, _, hpart⟩ := exists_of_run_mapM_eq_ok hrun outcome houtcome
  exact isPerItem_of_run_convertPart hpart

/-- Parts are converted and written one after the other where their files can be,
whichever of their occurrences fail. -/
theorem exists_run_convertParts_eq_ok (converter : Converter)
    (items : Part → List Occurrence) (parts : List Part) {disk : Disk}
    (hwritable : ∀ part, dataset.Writable disk part) :
    ∃ (outcomes : List (PartSummary × Report)) (after : Disk),
      (parts.mapM fun part => convertPart converter dataset part (items part)).run disk =
        (.ok outcomes, after) := by
  induction parts generalizing disk with
  | nil => exact ⟨[], disk, rfl⟩
  | cons head tail ih =>
      obtain ⟨middle, hfirst, hagrees, _⟩ :=
        exists_run_convertPart converter (hwritable head) (items head)
      obtain ⟨outcomes, after, hothers⟩ :=
        ih fun part => (hwritable part).of_agreesOff hagrees
      exact ⟨_, after, run_mapM_cons_of_ok hfirst hothers⟩

end

section

variable {config : Configuration} {corpus : Corpus} {occurrences : List Occurrence}
  {disk : Disk}

variable (source : WordSource σ) (state : σ) (tokenizer : Tokenizer)
  (directory : String)

/-- A fault of the run itself comes from a check, and nothing was written. -/
theorem snd_run_eq_of_isPerItem_eq_false {fault : Fault}
    (hrun : ((runConversion config source state tokenizer corpus occurrences
      directory).run disk).1 = .error fault) (hfault : fault.isPerItem = false) :
    ((runConversion config source state tokenizer corpus occurrences
      directory).run disk).2 = disk := by
  rw [runConversion] at hrun ⊢
  cases hplan : planRun config source state corpus occurrences disk with
  | error cause =>
      have hlook : (OnDisk.look (planRun config source state corpus
          occurrences)).run disk = (.error cause, disk) := by
        rw [OnDisk.run_look, hplan]
      rw [run_bind_of_error hlook]
  | ok plan =>
      have hlook : (OnDisk.look (planRun config source state corpus
          occurrences)).run disk = (.ok plan, disk) := by
        rw [OnDisk.run_look, hplan]
      rw [run_bind_of_ok hlook] at hrun
      -- past the checks there is no fault but of an item
      have hitem := ((OnDisk.failsPerItem_makeDirectories directory).bind fun _ =>
        (OnDisk.failsPerItem_mapM fun part => failsPerItem_convertPart
          (config.converter corpus tokenizer) (config.dataset directory) part
            (plan.2.items part)).bind fun _ => OnDisk.failsPerItem_pure _)
          disk fault hrun
      rw [hfault] at hitem
      cases hitem

theorem isPerItem_of_runConversion {summary : RunSummary}
    (hrun : ((runConversion config source state tokenizer corpus occurrences
      directory).run disk).1 = .ok summary) : summary.report.IsPerItem := by
  obtain ⟨plan, first, _, hrest⟩ :=
    exists_of_run_bind_eq_ok (Prod.ext hrun rfl)
  obtain ⟨_, ready, _, hparts⟩ := exists_of_run_bind_eq_ok hrest
  obtain ⟨outcomes, last, hconvert, hdone⟩ := exists_of_run_bind_eq_ok hparts
  injection hdone with hdone
  injection hdone with hdone
  rw [← hdone]
  have hempty : ({} : Report).IsPerItem :=
    fun failure hfailure => absurd hfailure List.not_mem_nil
  apply hempty.foldl_merge
  intro report hreport
  obtain ⟨outcome, houtcome, rfl⟩ := List.mem_map.mp hreport
  exact isPerItem_of_run_convertParts hconvert outcome houtcome

/-- A run succeeds just when its checks pass and its directory and files can be
made. -/
theorem exists_runConversion_eq_ok_iff :
    (∃ summary, ((runConversion config source state tokenizer corpus occurrences
        directory).run disk).1 = .ok summary) ↔
      (∃ parts, splitRun config corpus occurrences disk = .ok parts) ∧
        ∃ ready, (config.dataset directory).prepare.run disk = (.ok (), ready) ∧
          ∀ part, (config.dataset directory).Writable ready part := by
  constructor
  · rintro ⟨summary, hrun⟩
    obtain ⟨parts, ready, hsplit, hprepare, hwritable⟩ :=
      exists_of_runConversion_eq_ok (Prod.ext hrun rfl)
    exact ⟨⟨parts, hsplit⟩, ready, hprepare, hwritable⟩
  · rintro ⟨⟨parts, hsplit⟩, ready, hprepare, hwritable⟩
    obtain ⟨outcomes, after, hconvert⟩ := exists_run_convertParts_eq_ok
      (config.converter corpus tokenizer) (parts.shuffle source state).1.items
      Part.all hwritable
    exact ⟨_, congrArg Prod.fst (run_runConversion hsplit hprepare hconvert)⟩

end

/-- What stops a run and what does not.  After a fault that concerns more than one
item the disk is as it was.  A report, of a run, of a batch or of an excised corpus,
has faults of items only.  And a run succeeds just when the configuration is valid,
the corpus is that of the index, the parts can be cut, and the directory and the
files can be made: no occurrence that fails stops it. -/
theorem faults_of_runConversion (config : Configuration) (source : WordSource σ)
    (state : σ) (tokenizer : Tokenizer) (corpus : Corpus)
    (occurrences : List Occurrence) (directory : String) (disk : Disk) :
    let run := (runConversion config source state tokenizer corpus occurrences
      directory).run disk
    let dataset := config.dataset directory
    let selected := selectOccurrences config occurrences
    (∀ fault, run.1 = .error fault → fault.isPerItem = false → run.2 = disk) ∧
      (∀ summary, run.1 = .ok summary → summary.report.IsPerItem) ∧
      (∀ other items,
        ((config.converter corpus tokenizer).convertAll other items).report.IsPerItem) ∧
      (∀ target : Corpus, ∃ rows report,
        ((corpus.exciseAll target occurrences).run disk).1 = .ok (rows, report) ∧
          report.IsPerItem) ∧
      ((∃ summary, run.1 = .ok summary) ↔
        config.validate = .ok () ∧ corpus.checkMatches selected disk = .ok () ∧
          (∃ parts rest, partition Occurrence.group source selected
            config.trainFraction config.validationFraction state =
              .ok (parts, rest)) ∧
          ∃ ready, dataset.prepare.run disk = (.ok (), ready) ∧
            ∀ part, dataset.Writable ready part) := by
  intro run dataset selected
  refine ⟨fun fault => snd_run_eq_of_isPerItem_eq_false source state tokenizer
      directory, fun summary => isPerItem_of_runConversion source state tokenizer
      directory, (config.converter corpus tokenizer).isPerItem_report_convertAll,
      fun target => ?_, ?_⟩
  · obtain ⟨written, report, hrun, hexcises, _⟩ :=
      Corpus.exists_run_exciseAll corpus target occurrences disk
    exact ⟨_, report, congrArg Prod.fst hrun, hexcises.isPerItem⟩
  · have hcut : (∃ parts rest, partition Occurrence.group source selected
        config.trainFraction config.validationFraction state = .ok (parts, rest)) ↔
          ∃ parts, splitByPosition Occurrence.group selected config.trainFraction
            config.validationFraction = .ok parts := by
      rw [partition]
      constructor
      · rintro ⟨parts, rest, hparts⟩
        obtain ⟨split, hsplit, _⟩ := exists_of_map_eq_ok hparts
        exact ⟨split, hsplit⟩
      · rintro ⟨split, hsplit⟩
        exact ⟨_, _, by rw [hsplit]; rfl⟩
    rw [exists_runConversion_eq_ok_iff, hcut]
    simp only [splitRun_eq_ok, exists_and_left, and_assoc]
    rfl

/-- A run over one damaged record succeeds, and one whose limit is zero changes
nothing. -/
theorem faults_of_runConversion_of_one :
    let entries : List (Location × Entry) := [(["corpus"], .directory),
      (["corpus", "A.proto"], .file (.bytes [255]))]
    let disk : Disk := { entries := .ofList entries }
    let call : Occurrence := ⟨"A.proto", .info, "", some 1, none⟩
    let zeros : WordSource Unit := fun _ => (0, ())
    let run (config : Configuration) :=
      (runConversion config zeros () wordTokens ⟨"/corpus"⟩ [call] "/out").run disk
    (∃ summary, (run {}).1 = .ok summary ∧ summary.report.IsPerItem) ∧
      ∃ fault, (run { limit := some 0 }).1 = .error fault ∧
        fault.isPerItem = false ∧ (run { limit := some 0 }).2 = disk := by
  intro entries disk call zeros run
  let corpus : Corpus := ⟨"/corpus"⟩
  constructor
  · let config : Configuration := {}
    let dataset := config.dataset "/out"
    let ready := (dataset.prepare.run disk).2
    obtain ⟨_, hreports, _, _, hsucceeds⟩ := faults_of_runConversion config zeros ()
      wordTokens corpus [call] "/out" disk
    have hcut : ∃ parts rest, partition Occurrence.group zeros [call]
        config.trainFraction config.validationFraction () = .ok (parts, rest) := by
      obtain ⟨parts, hparts⟩ := exists_splitByPosition_singleton Occurrence.group call
        config.trainFraction config.validationFraction
      rw [partition, hparts]
      exact ⟨_, _, rfl⟩
    have hprepare : dataset.prepare.run disk = (.ok (), ready) :=
      Prod.ext (by decide +kernel) rfl
    have hwritable (part : Part) : dataset.Writable ready part := by
      intro path hpath
      have hplain : path = dataset.plainPath part := List.mem_singleton.mp hpath
      refine ⟨["out", part.fileName], ?_, ?_⟩
      · rw [hplain]
        cases part <;> decide +kernel
      · cases part <;> decide +kernel
    obtain ⟨summary, hrun⟩ := hsucceeds.mpr
      ⟨by decide +kernel, by decide +kernel, hcut, ready, hprepare, hwritable⟩
    exact ⟨summary, hrun, hreports summary hrun⟩
  · let config : Configuration := { limit := some 0 }
    let fault : Fault := .invalidConfig "limit must be positive"
    have hvalid : config.validate = .error fault := by
      decide +kernel
    have hlook : (OnDisk.look (planRun config zeros () corpus [call])).run disk =
        (.error fault, disk) := by
      rw [OnDisk.run_look, planRun, hvalid]
      rfl
    have hrun : (run config).1 = .error fault :=
      congrArg Prod.fst (run_bind_of_error hlook)
    exact ⟨fault, hrun, rfl, (faults_of_runConversion config zeros () wordTokens corpus
      [call] "/out" disk).1 fault hrun rfl⟩

end LogCorpus
