/-
What a run writes.

A run converts and writes one part after the other.  What it writes for one part
lies apart from the files of the others and from the records that it reads, so
every part is converted as on the disk before the first file was written.  The
words of the source decide nothing but the order within the parts.
-/
import LogCorpus.Conversion.Run
import LogCorpus.Proofs.Conversion.Batch
import LogCorpus.Proofs.Conversion.Converter
import LogCorpus.Proofs.Conversion.Dataset
import LogCorpus.Proofs.Partition

namespace LogCorpus

theorem Part.mem_all (part : Part) : part ∈ all := by
  cases part <;> decide

namespace Dataset

/-- The places at which something is written for any part. -/
def allPlaces (dataset : Dataset) (disk : Disk) : List Location :=
  Part.all.flatMap (dataset.places disk)

/-- No record of the occurrences lies where something is written. -/
def ApartFrom (dataset : Dataset) (corpus : Corpus)
    (occurrences : List Occurrence) (disk : Disk) : Prop :=
  ∀ occurrence ∈ occurrences, ∀ part, ∀ path ∈ dataset.paths part,
    disk.locate (corpus.resolve occurrence.graphPath) ≠ disk.locate path

theorem mem_allPlaces {dataset : Dataset} {disk : Disk} {place : Location} :
    place ∈ dataset.allPlaces disk ↔ ∃ part, place ∈ dataset.places disk part := by
  rw [allPlaces, List.mem_flatMap]
  exact ⟨fun ⟨part, _, hplace⟩ => ⟨part, hplace⟩,
    fun ⟨part, hplace⟩ => ⟨part, Part.mem_all part, hplace⟩⟩

/-- Making the directory keeps every entry. -/
theorem extends_prepare (dataset : Dataset) (disk : Disk) :
    Disk.Extends disk (dataset.prepare.run disk).2 :=
  disk.extends_makeDirectories dataset.directory

theorem ApartFrom.locate_ne {dataset : Dataset} {corpus : Corpus}
    {occurrences : List Occurrence} {disk : Disk}
    (hapart : dataset.ApartFrom corpus occurrences disk) {occurrence : Occurrence}
    (hoccurrence : occurrence ∈ occurrences) :
    ∀ place ∈ dataset.allPlaces disk,
      disk.locate (corpus.resolve occurrence.graphPath) ≠ .ok place := by
  intro place hplace hlocate
  obtain ⟨part, hpart⟩ := mem_allPlaces.mp hplace
  obtain ⟨path, hpath, hwritten⟩ := mem_places.mp hpart
  exact hapart occurrence hoccurrence part path hpath
    (hlocate.trans hwritten.symm)

end Dataset

/-- The examples of some occurrences. -/
def Converter.examples (converter : Converter) (disk : Disk)
    (occurrences : List Occurrence) : List TrainingExample :=
  occurrences.filterMap fun occurrence =>
    (converter.convert disk occurrence).toOption

theorem Converter.examples_congr {converter : Converter} {disk other : Disk}
    {occurrences : List Occurrence}
    (hconvert : ∀ occurrence ∈ occurrences,
      (converter.convert other occurrence).toOption =
        (converter.convert disk occurrence).toOption) :
    converter.examples other occurrences = converter.examples disk occurrences :=
  List.filterMap_congr hconvert

section

variable {converter : Converter} {dataset : Dataset}

/-- What is told of a part that is converted on some disk. -/
def partOutcome (converter : Converter) (dataset : Dataset) (part : Part)
    (occurrences : List Occurrence) (disk : Disk) : PartSummary × Report :=
  let batch := converter.convertAll disk occurrences
  (⟨part, occurrences.length, batch.examples.length, dataset.finalPath part⟩,
    batch.report)

/-- One part is converted and written where its files can be. -/
theorem exists_run_convertPart (converter : Converter) {disk : Disk} {part : Part}
    (hwritable : dataset.Writable disk part) (occurrences : List Occurrence) :
    ∃ after : Disk,
      (convertPart converter dataset part occurrences).run disk =
          (.ok (partOutcome converter dataset part occurrences disk), after) ∧
        Disk.AgreesOff (dataset.places disk part) disk after ∧
        dataset.Holds after part
          (renderLines (converter.examples disk occurrences)) := by
  obtain ⟨after, hrun, hagrees, hholds⟩ := hwritable.exists_run_writePart
    (converter.convertAll disk occurrences).examples
  rw [Converter.examples_convertAll] at hholds
  have hlook : (OnDisk.look fun disk =>
      .ok (converter.convertAll disk occurrences)).run disk =
        (.ok (converter.convertAll disk occurrences), disk) := rfl
  refine ⟨after, ?_, hagrees, hholds⟩
  rw [convertPart, run_bind_of_ok hlook, run_bind_of_ok hrun]
  rfl

theorem writable_of_run_convertPart {disk after : Disk} {part : Part}
    {occurrences : List Occurrence} {outcome : PartSummary × Report}
    (hrun : (convertPart converter dataset part occurrences).run disk =
      (.ok outcome, after)) : dataset.Writable disk part := by
  obtain ⟨batch, middle, hlook, hrest⟩ := exists_of_run_bind_eq_ok hrun
  obtain ⟨output, last, hwrite, _⟩ := exists_of_run_bind_eq_ok hrest
  injection hlook with _ hmiddle
  rw [← hmiddle] at hwrite
  exact Dataset.writable_of_run_writePart hwrite

/-- A part that is written is told of as it was converted. -/
theorem eq_partOutcome_of_run_convertPart {part : Part} {occurrences : List Occurrence}
    {disk after : Disk} {outcome : PartSummary × Report}
    (hrun : (convertPart converter dataset part occurrences).run disk =
      (.ok outcome, after)) :
    outcome = partOutcome converter dataset part occurrences disk := by
  obtain ⟨_, hsame, _⟩ := exists_run_convertPart converter
    (writable_of_run_convertPart hrun) occurrences
  rw [hrun] at hsame
  exact Except.ok.inj (congrArg Prod.fst hsame)

/-- The files of all parts that are written one after the other could be written
before the first one was. -/
theorem writable_of_run_convertParts {items : Part → List Occurrence}
    {parts : List Part} {disk after : Disk}
    {outcomes : List (PartSummary × Report)}
    (hrun : (parts.mapM fun part =>
      convertPart converter dataset part (items part)).run disk =
        (.ok outcomes, after)) :
    ∀ part ∈ parts, dataset.Writable disk part := by
  induction parts generalizing disk after outcomes with
  | nil => exact fun part hpart => absurd hpart List.not_mem_nil
  | cons head tail ih =>
      obtain ⟨first, others, middle, _, hfirst, hothers⟩ :=
        exists_of_run_mapM_cons_eq_ok hrun
      have hwritable := writable_of_run_convertPart hfirst
      obtain ⟨written, hwritten, hagrees, _⟩ :=
        exists_run_convertPart converter hwritable (items head)
      rw [hfirst] at hwritten
      injection hwritten with _ hmiddle
      intro part hpart
      rcases List.mem_cons.mp hpart with rfl | htail
      · exact hwritable
      · rw [← hmiddle] at hagrees
        exact (ih hothers part htail).of_agreesOff hagrees.symm

/-- Parts are converted and written one after the other.  Each holds what its
occurrences give on the disk before the first of them, and the files of other
parts stay as they are. -/
theorem exists_run_convertParts (converter : Converter) {items : Part → List Occurrence}
    {base : Disk}
    (hwritable : ∀ part, dataset.Writable base part)
    (hapart : ∀ part, dataset.ApartFrom converter.corpus (items part) base)
    {parts : List Part} (hparts : parts.Nodup) {disk : Disk}
    (hbase : Disk.AgreesOff (dataset.allPlaces base) base disk) :
    ∃ (outcomes : List (PartSummary × Report)) (after : Disk),
      (parts.mapM fun part =>
          convertPart converter dataset part (items part)).run disk =
          (.ok outcomes, after) ∧
        Disk.AgreesOff (dataset.allPlaces base) base after ∧
        (∀ part ∈ parts, dataset.Holds after part
          (renderLines (converter.examples base (items part)))) ∧
        ∀ part, part ∉ parts → ∀ text, dataset.Holds disk part text →
          dataset.Holds after part text := by
  induction parts generalizing disk with
  | nil =>
      exact ⟨[], disk, rfl, hbase, fun part hpart => absurd hpart List.not_mem_nil,
        fun _ _ _ hholds => hholds⟩
  | cons head tail ih =>
      obtain ⟨hhead, htail⟩ := List.nodup_cons.mp hparts
      obtain ⟨middle, hrun, hagrees, hholds⟩ := exists_run_convertPart converter
        ((hwritable head).of_agreesOff hbase) (items head)
      have hexamples : converter.examples disk (items head) =
          converter.examples base (items head) :=
        Converter.examples_congr fun occurrence hoccurrence =>
          Converter.toOption_convert_of_agreesOff hbase
            ((hapart head).locate_ne hoccurrence)
      rw [hexamples] at hholds
      have hmiddle : Disk.AgreesOff (dataset.allPlaces base) base middle := by
        apply hbase.trans
        apply hagrees.mono _ hbase.right_ne_directory
        intro place hplace
        rw [Dataset.places_eq_of_agreesOff hbase] at hplace
        exact Dataset.mem_allPlaces.mpr ⟨head, hplace⟩
      obtain ⟨outcomes, after, hothers, hafter, htail, hkept⟩ := ih htail hmiddle
      refine ⟨partOutcome converter dataset head (items head) disk :: outcomes, after,
        run_mapM_cons_of_ok hrun hothers, hafter, ?_, ?_⟩
      · intro part hpart
        rcases List.mem_cons.mp hpart with rfl | hmem
        · exact hkept part hhead _ hholds
        · exact htail part hmem
      · intro part hpart text hold
        rw [List.mem_cons, not_or] at hpart
        exact hkept part hpart.2 text (hold.of_agreesOff hagrees hpart.1)

end

/-- The parts of a run before they are shuffled, if all checks pass. -/
def splitRun (config : Configuration) (corpus : Corpus)
    (occurrences : List Occurrence) (disk : Disk) :
    Except Fault (Partition Occurrence) := do
  config.validate
  let selected := selectOccurrences config occurrences
  corpus.checkMatches selected disk
  splitByPosition Occurrence.group selected config.trainFraction
    config.validationFraction

/-- The words of the source decide only how the parts are shuffled. -/
theorem planRun_eq_map (config : Configuration) (source : WordSource σ) (state : σ)
    (corpus : Corpus) (occurrences : List Occurrence) (disk : Disk) :
    planRun config source state corpus occurrences disk =
      (splitRun config corpus occurrences disk).map fun parts =>
        (.ofOccurrences (selectOccurrences config occurrences),
          (parts.shuffle source state).1) := by
  rw [planRun, splitRun]
  cases config.validate with
  | error fault => rfl
  | ok checked =>
      change (corpus.checkMatches _ disk >>= _) =
        Except.map _ (corpus.checkMatches _ disk >>= _)
      cases corpus.checkMatches (selectOccurrences config occurrences) disk with
      | error fault => rfl
      | ok checked =>
          change (partition Occurrence.group source _ _ _ state >>= _) =
            Except.map _ (splitByPosition Occurrence.group _ _ _)
          rw [partition]
          cases splitByPosition Occurrence.group
              (selectOccurrences config occurrences) config.trainFraction
              config.validationFraction with
          | error fault => rfl
          | ok parts => rfl

section

variable {config : Configuration} {tokenizer : Tokenizer} {corpus : Corpus}
  {occurrences : List Occurrence} {directory : String} {disk : Disk}

/-- The dataset of a run. -/
def Configuration.dataset (config : Configuration) (directory : String) : Dataset :=
  ⟨directory, config.compress⟩

/-- What a run that succeeds has come through. -/
theorem exists_of_runConversion_eq_ok {source : WordSource σ} {state : σ}
    {after : Disk} {summary : RunSummary}
    (hrun : (runConversion config source state tokenizer corpus occurrences
      directory).run disk = (.ok summary, after)) :
    ∃ (parts : Partition Occurrence) (ready : Disk),
      splitRun config corpus occurrences disk = .ok parts ∧
        (config.dataset directory).prepare.run disk = (.ok (), ready) ∧
        ∀ part, (config.dataset directory).Writable ready part := by
  rw [runConversion] at hrun
  obtain ⟨⟨statistics, shuffled⟩, first, hplan, hrest⟩ :=
    exists_of_run_bind_eq_ok hrun
  obtain ⟨_, ready, hprepare, hparts⟩ := exists_of_run_bind_eq_ok hrest
  obtain ⟨outcomes, last, hconvert, _⟩ := exists_of_run_bind_eq_ok hparts
  rw [OnDisk.run_look, planRun_eq_map] at hplan
  injection hplan with hplan hfirst
  subst hfirst
  cases hsplit : splitRun config corpus occurrences disk with
  | error fault =>
      rw [hsplit] at hplan
      cases hplan
  | ok parts =>
      exact ⟨parts, ready, rfl, hprepare, fun part =>
        writable_of_run_convertParts hconvert part (Part.mem_all part)⟩

/-- The checks of a run, one by one. -/
theorem splitRun_eq_ok {parts : Partition Occurrence} :
    splitRun config corpus occurrences disk = .ok parts ↔
      config.validate = .ok () ∧
        corpus.checkMatches (selectOccurrences config occurrences) disk = .ok () ∧
        splitByPosition Occurrence.group (selectOccurrences config occurrences)
          config.trainFraction config.validationFraction = .ok parts := by
  constructor
  · intro hsplit
    obtain ⟨_, hvalid, hrest⟩ := exists_of_bind_eq_ok hsplit
    obtain ⟨_, hmatches, hparts⟩ := exists_of_bind_eq_ok hrest
    exact ⟨hvalid, hmatches, hparts⟩
  · rintro ⟨hvalid, hmatches, hparts⟩
    simp only [splitRun, hvalid, hmatches, hparts, bind, Except.bind]

theorem splitByPosition_of_splitRun {parts : Partition Occurrence}
    (hsplit : splitRun config corpus occurrences disk = .ok parts) :
    splitByPosition Occurrence.group (selectOccurrences config occurrences)
      config.trainFraction config.validationFraction = .ok parts :=
  (splitRun_eq_ok.mp hsplit).2.2

/-- A run goes through its checks, makes the directory and converts part by part. -/
theorem run_runConversion {source : WordSource σ} {state : σ}
    {parts : Partition Occurrence} {ready after : Disk}
    {outcomes : List (PartSummary × Report)}
    (hsplit : splitRun config corpus occurrences disk = .ok parts)
    (hprepare : (config.dataset directory).prepare.run disk = (.ok (), ready))
    (hconvert : (Part.all.mapM fun part =>
      convertPart (config.converter corpus tokenizer) (config.dataset directory) part
        ((parts.shuffle source state).1.items part)).run ready =
          (.ok outcomes, after)) :
    (runConversion config source state tokenizer corpus occurrences directory).run
        disk =
      (.ok ⟨.ofOccurrences (selectOccurrences config occurrences),
        outcomes.map Prod.fst, (outcomes.map Prod.snd).foldl Report.merge {}⟩,
        after) := by
  have hplan : (OnDisk.look (planRun config source state corpus occurrences)).run
      disk = (.ok (.ofOccurrences (selectOccurrences config occurrences),
        (parts.shuffle source state).1), disk) := by
    rw [OnDisk.run_look, planRun_eq_map, hsplit]
    rfl
  rw [runConversion, run_bind_of_ok hplan]
  refine (run_bind_of_ok hprepare).trans ?_
  exact (run_bind_of_ok hconvert).trans rfl

/-- A run succeeds when all checks pass and the files can be written, whatever
the words of the source. -/
theorem exists_runConversion (tokenizer : Tokenizer)
    {parts : Partition Occurrence} {ready : Disk}
    (hsplit : splitRun config corpus occurrences disk = .ok parts)
    (hprepare : (config.dataset directory).prepare.run disk = (.ok (), ready))
    (hwritable : ∀ part, (config.dataset directory).Writable ready part)
    (hapart : (config.dataset directory).ApartFrom corpus
      (selectOccurrences config occurrences) ready)
    (source : WordSource σ) (state : σ) :
    ∃ (summary : RunSummary) (after : Disk),
      (runConversion config source state tokenizer corpus occurrences
          directory).run disk = (.ok summary, after) ∧
        Disk.AgreesOff ((config.dataset directory).allPlaces ready) ready after ∧
        ∀ part, (config.dataset directory).Holds after part
          (renderLines ((config.converter corpus tokenizer).examples ready
            ((parts.shuffle source state).1.items part))) := by
  let shuffled := (parts.shuffle source state).1
  have hpart (part : Part) : (config.dataset directory).ApartFrom corpus
      (shuffled.items part) ready := by
    intro occurrence hoccurrence
    apply hapart occurrence
    have hmem : occurrence ∈ parts.items part :=
      (Partition.items_shuffle_perm source parts state part).mem_iff.mp hoccurrence
    exact mem_of_mem_items (splitByPosition_of_splitRun hsplit) hmem
  have hplaces : ∀ place ∈ (config.dataset directory).allPlaces ready,
      ready.find? place ≠ some .directory := by
    intro place hplace
    obtain ⟨part, hmem⟩ := Dataset.mem_allPlaces.mp hplace
    exact (hwritable part).ne_directory place hmem
  have hall : Part.all.Nodup := by
    decide
  obtain ⟨outcomes, after, hconvert, hafter, hholds, _⟩ := exists_run_convertParts
    (config.converter corpus tokenizer) hwritable hpart hall
    (Disk.AgreesOff.refl hplaces)
  exact ⟨_, after, run_runConversion hsplit hprepare hconvert, hafter,
    fun part => hholds part (Part.mem_all part)⟩

/-- Where the examples of a shuffled part are held, the lines are those of the
part in some order. -/
theorem exists_lines_of_holds {dataset : Dataset} {converter : Converter}
    {ready last : Disk} {parts : Partition Occurrence} {source : WordSource σ}
    {state : σ} {part : Part}
    (hholds : dataset.Holds last part (renderLines
      (converter.examples ready ((parts.shuffle source state).1.items part)))) :
    ∃ lines : List String, dataset.lines? part last = some lines ∧
      lines.Perm ((converter.examples ready (parts.items part)).map
        TrainingExample.line) := by
  have hperm := Partition.items_shuffle_perm source parts state part
  refine ⟨_, ?_, (hperm.filterMap _).map TrainingExample.line⟩
  rw [Dataset.lines?, hholds.text?_eq]
  exact textLines?_renderLines _

/-- The lines of the files that a run has written are those of the examples of
its parts, each as often as its occurrence is in the part.  Other words of the
source change nothing on the disk but these files, and in them only the order of
the lines. -/
theorem lines_of_runConversion {source : WordSource σ} {state : σ} {after : Disk}
    {summary : RunSummary}
    (hrun : (runConversion config source state tokenizer corpus occurrences
      directory).run disk = (.ok summary, after))
    (hapart : (config.dataset directory).ApartFrom corpus
      (selectOccurrences config occurrences)
      ((config.dataset directory).prepare.run disk).2) :
    let dataset := config.dataset directory
    let converter := config.converter corpus tokenizer
    let selected := selectOccurrences config occurrences
    let ready := (dataset.prepare.run disk).2
    ∃ parts : Partition Occurrence,
      splitByPosition Occurrence.group selected config.trainFraction
          config.validationFraction = .ok parts ∧
        (∀ part, ∃ lines : List String, dataset.lines? part after = some lines ∧
          lines.Perm (((parts.items part).filterMap fun occurrence =>
            (converter.convert ready occurrence).toOption).map
              TrainingExample.line)) ∧
        (∀ occurrence ∈ selected,
          (converter.convert after occurrence).toOption =
              (converter.convert ready occurrence).toOption ∧
            (disk.isFile (corpus.resolve occurrence.graphPath) = true →
              converter.convert ready occurrence =
                converter.convert disk occurrence)) ∧
        ∀ {τ : Type} (other : WordSource τ) (seed : τ),
          ∃ (otherSummary : RunSummary) (otherAfter : Disk),
            (runConversion config other seed tokenizer corpus occurrences
                directory).run disk = (.ok otherSummary, otherAfter) ∧
              (∀ part, ∃ lines otherLines : List String,
                dataset.lines? part after = some lines ∧
                  dataset.lines? part otherAfter = some otherLines ∧
                  otherLines.Perm lines) ∧
              ∀ place, (∀ part,
                  ready.locate (dataset.finalPath part) ≠ .ok place) →
                otherAfter.find? place = after.find? place := by
  intro dataset converter selected ready
  obtain ⟨parts, prepared, hsplit, hprepare, hwritable⟩ :=
    exists_of_runConversion_eq_ok hrun
  have hready : ready = prepared := congrArg Prod.snd hprepare
  rw [← hready] at hprepare hwritable
  -- this run is the one that succeeds with its words
  obtain ⟨_, written, hwritten, hagrees, hholds⟩ :=
    exists_runConversion tokenizer hsplit hprepare hwritable hapart source state
  rw [hrun] at hwritten
  injection hwritten with _ hafter
  subst hafter
  refine ⟨parts, splitByPosition_of_splitRun hsplit,
    fun part => exists_lines_of_holds (hholds part), ?_, ?_⟩
  · intro occurrence hoccurrence
    constructor
    · exact Converter.toOption_convert_of_agreesOff hagrees
        (hapart.locate_ne hoccurrence)
    · intro hfile
      exact Converter.convert_of_extends (dataset.extends_prepare disk) hfile
  · intro τ other seed
    obtain ⟨otherSummary, otherAfter, hother, hotherAgrees, hotherHolds⟩ :=
      exists_runConversion tokenizer hsplit hprepare hwritable hapart other seed
    refine ⟨otherSummary, otherAfter, hother, fun part => ?_, fun place hplace => ?_⟩
    · obtain ⟨lines, hstored, hperm⟩ := exists_lines_of_holds (hholds part)
      obtain ⟨otherLines, hotherStored, hotherPerm⟩ :=
        exists_lines_of_holds (hotherHolds part)
      exact ⟨lines, otherLines, hstored, hotherStored, hotherPerm.trans hperm.symm⟩
    · by_cases hmem : place ∈ dataset.allPlaces ready
      · obtain ⟨part, hpart⟩ := Dataset.mem_allPlaces.mp hmem
        rw [(hholds part).find?_eq_none_of_agreesOff hagrees hpart (hplace part),
          (hotherHolds part).find?_eq_none_of_agreesOff hotherAgrees hpart
            (hplace part)]
      · rw [hotherAgrees.find?_eq place hmem, hagrees.find?_eq place hmem]

end

/-- A corpus of one record is converted and packed: one of the files holds the
line of its example, the two others hold none. -/
theorem lines_of_runConversion_of_one :
    let graph : Graph := ⟨"A.java",
      [⟨1, .token, "log", 1, 1, 0, 3⟩, ⟨2, .token, ";", 1, 1, 3, 4⟩],
      [⟨1, 2, .nextToken⟩, ⟨2, 1, .nextToken⟩]⟩
    let entries : List (Location × Entry) := [(["corpus"], .directory),
      (["corpus", "A.proto"], .file (.bytes graph.toRecord))]
    let disk : Disk := { entries := .ofList entries }
    let call : Occurrence := ⟨"A.proto", .info, "", some 1, none⟩
    let config : Configuration := { compress := true }
    let zeros : WordSource Unit := fun _ => (0, ())
    let training : TrainingExample := ⟨[""], [], [], ["info"], 0⟩
    ∃ (summary : RunSummary) (after : Disk) (part : Part),
      (runConversion config zeros () wordTokens ⟨"/corpus"⟩ [call] "/out").run
          disk = (.ok summary, after) ∧
        (config.dataset "/out").lines? part after = some [training.line] ∧
        ∀ other, other ≠ part →
          (config.dataset "/out").lines? other after = some [] := by
  intro graph entries disk call config zeros training
  let corpus : Corpus := ⟨"/corpus"⟩
  let ready := ((config.dataset "/out").prepare.run disk).2
  obtain ⟨parts, hparts⟩ := exists_splitByPosition_singleton Occurrence.group call
    config.trainFraction config.validationFraction
  have hmatches : corpus.checkMatches [call] disk = .ok () := by
    decide +kernel
  have hvalid : config.validate = .ok () := by
    decide +kernel
  have hsplit : splitRun config corpus [call] disk = .ok parts := by
    rw [splitRun, hvalid]
    change (corpus.checkMatches [call] disk >>= _) = _
    rw [hmatches]
    exact hparts
  have hprepare : (config.dataset "/out").prepare.run disk = (.ok (), ready) := by
    apply Prod.ext
    · decide +kernel
    · rfl
  have hplaces (part : Part) : ∀ path ∈ (config.dataset "/out").paths part,
      ∃ name, ready.locate path = .ok ["out", name] ∧
        ready.find? ["out", name] = none := by
    have hpaths : (config.dataset "/out").paths part =
        [part.fileName, part.fileName ++ ".gz"].map ("/out/" ++ ·) := by
      cases part <;> decide +kernel
    rw [hpaths]
    intro path hpath
    obtain ⟨name, hname, rfl⟩ := List.mem_map.mp hpath
    refine ⟨name, ?_⟩
    revert name
    cases part <;> decide +kernel
  have hwritable (part : Part) : (config.dataset "/out").Writable ready part := by
    intro path hpath
    obtain ⟨name, hlocate, hnone⟩ := hplaces part path hpath
    exact ⟨["out", name], hlocate, by rw [hnone]; exact nofun⟩
  have hrecord : ready.locate (corpus.resolve "A.proto") =
      .ok ["corpus", "A.proto"] := by
    decide +kernel
  have hapart : (config.dataset "/out").ApartFrom corpus [call] ready := by
    intro occurrence hoccurrence part path hpath hsame
    obtain ⟨name, hlocate, _⟩ := hplaces part path hpath
    rw [List.mem_singleton.mp hoccurrence, hrecord, hlocate] at hsame
    injection hsame with hsame
    injection hsame with hhead
    exact absurd hhead (by decide)
  have hconvert : ((config.converter corpus wordTokens).convert ready call).toOption =
      some training := by
    decide +kernel
  obtain ⟨summary, after, hrun, _⟩ := exists_runConversion wordTokens hsplit
    hprepare hwritable hapart zeros ()
  obtain ⟨split, hsame, hlines, _⟩ := lines_of_runConversion hrun hapart
  have happend : split.train ++ (split.validation ++ split.test) = [call] :=
    append_of_splitByPosition_eq_ok hsame
  obtain ⟨part, hpart, hothers⟩ := Partition.exists_items_eq_singleton happend
  refine ⟨summary, after, part, hrun, ?_, fun other hother => ?_⟩
  · obtain ⟨lines, hstored, hperm⟩ := hlines part
    have hexamples : ([call].filterMap fun occurrence =>
        ((config.converter corpus wordTokens).convert ready occurrence).toOption) =
          [training] := by
      rw [List.filterMap_cons, hconvert]
      rfl
    rw [hpart, hexamples, List.map_singleton, List.perm_singleton] at hperm
    rw [hstored, hperm]
  · obtain ⟨lines, hstored, hperm⟩ := hlines other
    rw [hothers other hother] at hperm
    rw [hstored, List.perm_nil.mp hperm]

end LogCorpus
