/-
Modified corpora and their conversion.

Where every record is written at a place of its own that is no place of a record that
is read, the records read and those already written stay as they are.  Each row of the
new index then refers to the graph that a conversion of its occurrence excises, so both
ways lead to the same example.
-/
import LogCorpus.Proofs.Corpus.Excision
import LogCorpus.Proofs.Statement.Remainder

namespace LogCorpus

/-- What an excision of a well-formed graph leaves is well formed and has no more
nodes. -/
theorem Graph.WellFormed.of_excised {graph after : Graph} (hgraph : graph.WellFormed)
    {occurrence : Occurrence} (hexcised : Converter.excised graph occurrence = .ok after) :
    after.WellFormed ∧ after.nodeCount ≤ graph.nodeCount := by
  rw [Converter.excised] at hexcised
  cases hroot : occurrence.root with
  | none =>
      rw [hroot] at hexcised
      injection hexcised with hsame
      subst hsame
      exact ⟨hgraph, Nat.le_refl _⟩
  | some root =>
      rw [hroot] at hexcised
      obtain ⟨excision, hexcise, rfl⟩ := exists_of_map_eq_ok hexcised
      refine ⟨hgraph.of_excise hexcise, ?_⟩
      obtain ⟨hspan, hafter⟩ := isStatement_of_excise hexcise
      have hstop := hspan.base_add_two_le
      have hids := congrArg List.length (ids_excised graph excision.span)
      simp only [← hafter, ids, List.length_append, List.length_take, List.length_drop,
        List.length_map] at hids
      simp only [nodeCount]
      omega

/-- A row without a root has the example of its occurrence in the same graph. -/
theorem Projector.project_moveTo {projector : Projector} {graph : Graph}
    {occurrence : Occurrence} {destination : String} {training : TrainingExample}
    (hproject : projector.project graph occurrence = .ok training) :
    projector.project graph (occurrence.moveTo destination) = .ok training := by
  obtain ⟨found, hfound, hrest⟩ := exists_of_bind_eq_ok hproject
  have htarget : projector.target (occurrence.moveTo destination) =
      projector.target occurrence := rfl
  rw [project, htarget, hfound]
  change (if projector.mode = .statement ∧ found.logNode < 0 then _ else _) = _ at hrest ⊢
  split at hrest
  · cases hrest
  · next hsentinel =>
      rw [if_neg hsentinel]
      exact hrest

namespace Corpus

variable {source target : Corpus}

/-- Every destination is at a place of its own, and none is at the place of a record
that is read to be excised. -/
structure WritesApart (source target : Corpus) (items : List (Occurrence × String))
    (disk : Disk) : Prop where
  destinations_apart : items.Pairwise fun first second =>
    ¬ Disk.Meet (disk.locate (target.resolve first.2))
      (disk.locate (target.resolve second.2))
  sources_apart : ∀ item ∈ items, item.1.root ≠ none → ∀ other ∈ items,
    ¬ Disk.Meet (disk.locate (source.resolve item.1.graphPath))
      (disk.locate (target.resolve other.2))

theorem WritesApart.tail {item : Occurrence × String}
    {items : List (Occurrence × String)} {disk : Disk}
    (hapart : WritesApart source target (item :: items) disk) :
    WritesApart source target items disk where
  destinations_apart := (List.pairwise_cons.mp hapart.destinations_apart).2
  sources_apart first hfirst hroot second hsecond :=
    hapart.sources_apart first (List.mem_cons_of_mem _ hfirst) hroot second
      (List.mem_cons_of_mem _ hsecond)

/-- Paths whose goals are apart before the run lead to places apart after it. -/
theorem writesApart_of_goals {occurrences : List Occurrence} {disk : Disk}
    (hdestinations : (withDestinations occurrences).Pairwise fun first second =>
      ¬ Disk.Meet (disk.goal (target.resolve first.2))
        (disk.goal (target.resolve second.2)))
    (hsources : ∀ item ∈ withDestinations occurrences, item.1.root ≠ none →
      ∀ other ∈ withDestinations occurrences,
        ¬ Disk.Meet (disk.goal (source.resolve item.1.graphPath))
          (disk.goal (target.resolve other.2))) :
    WritesApart source target (withDestinations occurrences)
      (source.excisedDisk target occurrences disk) := by
  obtain ⟨_, _, _, hexcises, _⟩ := exists_run_exciseAll source target occurrences disk
  have hworking := hexcises.growsOff.working_eq
  exact ⟨hdestinations.imp fun hapart hmeet => hapart (hmeet.goals hworking),
    fun item hitem hroot other hother hmeet =>
      hsources item hitem hroot other hother (hmeet.goals hworking)⟩

theorem exciseOne_eq_of_load {occurrence : Occurrence} {disk : Disk} {graph : Graph}
    (hroot : occurrence.root ≠ none)
    (hload : source.load occurrence.graphPath disk = .ok graph) :
    source.exciseOne occurrence disk = Converter.excised graph occurrence := by
  cases hfound : occurrence.root with
  | none => exact absurd hfound hroot
  | some root =>
      simp only [exciseOne, Converter.excised, hfound, hload]
      change (graph.excise root >>= fun excision => pure excision.graph) = _
      cases graph.excise root with
      | error fault => rfl
      | ok excision => rfl

/-- What is excised is loaded first, and needs a root. -/
theorem exists_of_exciseOne_eq_ok {occurrence : Occurrence} {disk : Disk} {after : Graph}
    (hexcise : source.exciseOne occurrence disk = .ok after) :
    occurrence.root ≠ none ∧ ∃ graph,
      source.load occurrence.graphPath disk = .ok graph ∧
        Converter.excised graph occurrence = .ok after := by
  have hroot : occurrence.root ≠ none := by
    intro hnone
    simp only [exciseOne, hnone] at hexcise
    cases hexcise
  refine ⟨hroot, ?_⟩
  cases hload : source.load occurrence.graphPath disk with
  | error fault =>
      obtain ⟨root, hfound⟩ := Option.ne_none_iff_exists'.mp hroot
      simp only [exciseOne, hfound, hload] at hexcise
      cases hexcise
  | ok graph => exact ⟨graph, rfl, (exciseOne_eq_of_load hroot hload).symm.trans hexcise⟩

section

variable {place : Nat} {disk after : Disk} {items : List (Occurrence × String)}
  {written : List (Occurrence × Occurrence)} {failures : List ItemFailure}
  (hrun : Excises source target place disk items written failures after)
include hrun

theorem Excises.exists_destination {found : Location}
    (hfound : found ∈ target.placesOf after written) :
    ∃ item ∈ items, after.locate (target.resolve item.2) = .ok found := by
  obtain ⟨⟨occurrence, row⟩, hwritten, hlocate⟩ := hfound
  obtain ⟨destination, hitem, rfl⟩ := hrun.exists_item hwritten
  exact ⟨(occurrence, destination), hitem, hlocate⟩

/-- A record at the place of no destination is loaded alike before the run and
after it. -/
theorem Excises.load_eq_ok {corpus : Corpus} {graphPath : String} {graph : Graph}
    (hapart : ∀ item ∈ items,
      ¬ Disk.Meet (after.locate (corpus.resolve graphPath))
        (after.locate (target.resolve item.2)))
    (hload : corpus.load graphPath disk = .ok graph) :
    corpus.load graphPath after = .ok graph := by
  apply load_of_growsOff hrun.growsOff _ hload
  intro found hfound hlocate
  obtain ⟨item, hitem, hdestination⟩ := hrun.exists_destination hfound
  exact hapart item hitem ⟨found, hlocate, hdestination⟩

theorem Excises.exciseOne_eq_ok {occurrence : Occurrence} {graph : Graph}
    (hapart : occurrence.root ≠ none → ∀ item ∈ items,
      ¬ Disk.Meet (after.locate (source.resolve occurrence.graphPath))
        (after.locate (target.resolve item.2)))
    (hexcise : source.exciseOne occurrence disk = .ok graph) :
    source.exciseOne occurrence after = .ok graph := by
  obtain ⟨hroot, loaded, hload, hexcised⟩ := exists_of_exciseOne_eq_ok hexcise
  rw [exciseOne_eq_of_load hroot (hrun.load_eq_ok (hapart hroot) hload), hexcised]

end

/-- After the run, the record that a row refers to holds the graph that an excision
of its occurrence gives. -/
theorem Excises.holds_excised {place : Nat} {disk after : Disk}
    {items : List (Occurrence × String)} {written : List (Occurrence × Occurrence)}
    {failures : List ItemFailure}
    (hrun : Excises source target place disk items written failures after)
    (hapart : WritesApart source target items after) {occurrence row : Occurrence}
    (hwritten : (occurrence, row) ∈ written) :
    ∃ graph, source.exciseOne occurrence after = .ok graph ∧
      target.Holds after row.graphPath graph := by
  induction hrun with
  | done place disk => exact absurd hwritten List.not_mem_nil
  | @written _ _ _ _ head destination _ _ _ graph hexcise hstore hrest ih =>
      rcases List.mem_cons.mp hwritten with heq | htail
      · injection heq with hoccurrence hrow
        subst hoccurrence hrow
        refine ⟨graph, ?_, ?_⟩
        · exact (Excises.written hexcise hstore hrest).exciseOne_eq_ok
            (hapart.sources_apart _ List.mem_cons_self) hexcise
        · apply (holds_of_run_store_eq_ok hstore).1.of_growsOff hrest.growsOff
          intro found hfound hlocate
          obtain ⟨item, hitem, hdestination⟩ := hrest.exists_destination hfound
          exact (List.pairwise_cons.mp hapart.destinations_apart).1 item hitem
            ⟨found, hlocate, hdestination⟩
      · exact ih hapart.tail htail
  | unread hexcise hrest ih => exact ih hapart.tail hwritten
  | unwritten hexcise hstore hrest ih => exact ih hapart.tail hwritten

/-- The example of an occurrence is also that of its row, from the record that the
row refers to. -/
theorem convert_moveTo_eq_ok (converter : Converter) {disk : Disk}
    {occurrence : Occurrence} {destination : String} {graph : Graph}
    (hexcise : converter.corpus.exciseOne occurrence disk = .ok graph)
    (hholds : target.Holds disk destination graph)
    (hsize : graph.toRecord.length ≤ maxRecordBytes) {training : TrainingExample}
    (hconvert : converter.convert disk occurrence = .ok training) :
    Converter.convert ⟨target, converter.projector, converter.maxGraphNodes⟩ disk
      (occurrence.moveTo destination) = .ok training := by
  obtain ⟨_, loaded, hload, hexcised⟩ := exists_of_exciseOne_eq_ok hexcise
  obtain ⟨hgraph, hcount⟩ := (wellFormed_of_load hload).of_excised hexcised
  rw [Converter.convert_of_load hload, hexcised] at hconvert
  have hstored : target.load destination disk = .ok graph :=
    hholds.load_eq_ok hgraph hsize
  by_cases hlimit : converter.maxGraphNodes < loaded.nodeCount
  · rw [if_pos hlimit] at hconvert
    cases hconvert
  · rw [if_neg hlimit] at hconvert
    have hless : ¬ converter.maxGraphNodes < graph.nodeCount := by
      omega
    simp only [Converter.convert, Occurrence.moveTo, hstored]
    change (if converter.maxGraphNodes < graph.nodeCount then _ else _) = _
    rw [if_neg hless]
    exact Projector.project_moveTo hconvert

/-- Every occurrence that is written has a row without a root, and its example, before
the run or after it, is that of the row after the run.  This holds where every record
is written at a place of its own that is no place of a record that is excised, and no
excised record is larger than records may be. -/
theorem convert_of_excised {source target : Corpus} {occurrences : List Occurrence}
    {disk : Disk}
    (hapart : WritesApart source target (withDestinations occurrences)
      (source.excisedDisk target occurrences disk))
    (hsize : ∀ occurrence ∈ occurrences, ∀ graph,
      source.exciseOne occurrence (source.excisedDisk target occurrences disk) =
        .ok graph → graph.toRecord.length ≤ maxRecordBytes) :
    ∃ written report,
      (source.exciseAll target occurrences).run disk =
          (.ok (written.map Prod.snd, report),
            source.excisedDisk target occurrences disk) ∧
        Excises source target 0 disk (withDestinations occurrences) written
          report.failures (source.excisedDisk target occurrences disk) ∧
        report.total = occurrences.length ∧ report.succeeded = written.length ∧
        report.succeeded + report.failures.length = report.total ∧
        ∀ occurrence row, (occurrence, row) ∈ written →
          (occurrence, row.graphPath) ∈ withDestinations occurrences ∧
          row.severity = occurrence.severity ∧ row.message = occurrence.message ∧
          row.line = occurrence.line ∧ row.root = none ∧
          ∀ projector limit training,
            (Converter.convert ⟨source, projector, limit⟩ disk occurrence =
                .ok training ∨
              Converter.convert ⟨source, projector, limit⟩
                (source.excisedDisk target occurrences disk) occurrence =
                .ok training) →
            Converter.convert ⟨target, projector, limit⟩
              (source.excisedDisk target occurrences disk) row = .ok training := by
  obtain ⟨written, report, hrun, hexcises, htotal, hsucceeded, hsum⟩ :=
    exists_run_exciseAll source target occurrences disk
  refine ⟨written, report, hrun, hexcises, htotal, hsucceeded, hsum, ?_⟩
  intro occurrence row hwritten
  obtain ⟨destination, hitem, rfl⟩ := hexcises.exists_item hwritten
  obtain ⟨graph, hexcise, hholds⟩ := hexcises.holds_excised hapart hwritten
  have hoccurrence : occurrence ∈ occurrences := by
    rw [← map_fst_withDestinations occurrences]
    exact List.mem_map_of_mem hitem
  refine ⟨hitem, rfl, rfl, rfl, rfl, fun projector limit training hconvert => ?_⟩
  let converter : Converter := ⟨source, projector, limit⟩
  apply convert_moveTo_eq_ok converter hexcise hholds
    (hsize occurrence hoccurrence graph hexcise)
  rcases hconvert with hbefore | hafter
  · -- the record is read alike before the run and after it
    obtain ⟨loaded, hload, _⟩ := exists_of_bind_eq_ok hbefore
    have hlater := hexcises.load_eq_ok
      (hapart.sources_apart _ hitem (exists_of_exciseOne_eq_ok hexcise).1) hload
    rw [← hbefore]
    exact Converter.convert_congr_of_load (hlater.trans hload.symm)
  · exact hafter

/-- Two statements of one record, an occurrence without a record and one without a
root. -/
theorem convert_of_excised_of_four :
    let word (id : UInt64) (contents : String) : Node :=
      ⟨id, .token, contents, 3, 3, 0, 1⟩
    let graph : Graph := ⟨"A.java", [word 1 "log", word 2 ";", word 3 "LOG", word 4 ";"],
      [⟨1, 3, .nextToken⟩]⟩
    let entries : List (Location × Entry) := [(["raw"], .directory),
      (["raw", "Foo.proto"], .file (.bytes graph.toRecord))]
    let disk : Disk := { entries := .ofList entries }
    let source : Corpus := ⟨"/raw"⟩
    let target : Corpus := ⟨"/new"⟩
    let first : Occurrence := ⟨"Foo.proto", .info, "m", some 1, some 3⟩
    let occurrences : List Occurrence := [first, ⟨"Foo.proto", .warn, "n", some 3, none⟩,
      ⟨"Gone.proto", .info, "m", some 1, none⟩, ⟨"Foo.proto", .info, "m", none, none⟩]
    let row : Occurrence := ⟨"Foo1.proto", .info, "m", none, some 3⟩
    let rows : List Occurrence := [row, ⟨"Foo2.proto", .warn, "n", none, none⟩]
    let failures : List ItemFailure := [⟨2, "Gone.proto",
        .io "Cannot open '/raw/Gone.proto': No such file or directory (os error 2)"⟩,
      ⟨3, "Foo.proto", .invalidOccurrence "Foo.proto has no root id"⟩]
    let training : TrainingExample := ⟨["", "LOG", ";"], [0, 1],
      [(.nextToken, [(0, 1)])], ["info"], 0⟩
    let converter (corpus : Corpus) : Converter := ⟨corpus, ⟨.severity, wordTokens⟩, 4⟩
    let after : Disk := source.excisedDisk target occurrences disk
    ((source.exciseAll target occurrences).run disk).1 =
        .ok (rows, ⟨4, 2, failures⟩) ∧
      (converter source).convert disk first = .ok training ∧
      (converter target).convert after row = .ok training := by
  intro word graph entries disk source target first occurrences row rows failures training
    converter after
  have hapart : WritesApart source target (withDestinations occurrences) after :=
    writesApart_of_goals (by decide +kernel) (by decide +kernel)
  have hsizes : ∀ occurrence ∈ occurrences,
      (source.exciseOne occurrence after).toOption.all (fun graph =>
        graph.toRecord.length ≤ maxRecordBytes) = true := by
    decide +kernel
  have hsize : ∀ occurrence ∈ occurrences, ∀ graph,
      source.exciseOne occurrence after = .ok graph →
        graph.toRecord.length ≤ maxRecordBytes := by
    intro occurrence hoccurrence graph hexcise
    have hall := hsizes occurrence hoccurrence
    rw [hexcise] at hall
    exact of_decide_eq_true hall
  have hconvert : (converter source).convert disk first = .ok training := by
    decide +kernel
  have houtcome : ((source.exciseAll target occurrences).run disk).1 =
      .ok (rows, ⟨4, 2, failures⟩) := by
    decide +kernel
  refine ⟨houtcome, hconvert, ?_⟩
  obtain ⟨written, report, hrun, hexcises, _, _, _, hrows⟩ :=
    convert_of_excised hapart hsize
  rw [hrun] at houtcome
  have hindex : written.map Prod.snd = rows :=
    congrArg Prod.fst (Except.ok.inj houtcome)
  have hrow : row ∈ written.map Prod.snd := by
    rw [hindex]
    exact List.mem_cons_self
  obtain ⟨⟨occurrence, _⟩, hwritten, rfl⟩ := List.mem_map.mp hrow
  obtain ⟨destination, hitem, hmoved⟩ := hexcises.exists_item hwritten
  have hfirst : ∀ item ∈ withDestinations occurrences,
      item.1.moveTo item.2 = row → item.1 = first := by
    decide +kernel
  have hsame : occurrence = first := hfirst _ hitem hmoved.symm
  obtain ⟨_, _, _, _, _, hexample⟩ := hrows occurrence row hwritten
  rw [hsame] at hexample
  exact hexample _ _ training (.inl hconvert)

end Corpus

end LogCorpus
