/-
Groups of a modified corpus.

A record is read only if its path leads to a file, and such a path ends in a name.  So
the rows of the new index are in the groups of the occurrences that they come from, one
by one, and whatever asks for groups treats the new index like those occurrences.
-/
import LogCorpus.Proofs.Corpus.Confinement
import LogCorpus.Proofs.Corpus.Prepared
import LogCorpus.Proofs.Distinct
import LogCorpus.Proofs.Occurrence.Siblings
import LogCorpus.Proofs.Partition.Boundaries
import LogCorpus.Proofs.Partition.Images

namespace LogCorpus

/-- Where groups matter, the second occurrences of pairs are treated like the first.  If
the first of each group are kept, then they are those of the same pairs, and a partition
fails alike or has those of the same pairs in the same places. -/
structure TreatedAlike (pairs : List (Occurrence × Occurrence)) : Prop where
  kept_alike : ∃ kept : List (Occurrence × Occurrence), kept.Sublist pairs ∧
    firstOfEachGroup (pairs.map Prod.fst) = kept.map Prod.fst ∧
    firstOfEachGroup (pairs.map Prod.snd) = kept.map Prod.snd
  partitioned_alike : ∀ {σ : Type} (source : WordSource σ) (train validation : Float) (state : σ),
    ∃ outcome : Except Fault (Partition (Occurrence × Occurrence) × σ),
      (∀ parts rest, outcome = .ok (parts, rest) →
        (parts.train ++ (parts.validation ++ parts.test)).Perm pairs) ∧
      partition Occurrence.group source (pairs.map Prod.fst) train validation state =
        (outcome.map fun (parts, rest) => (parts.map Prod.fst, rest)) ∧
      partition Occurrence.group source (pairs.map Prod.snd) train validation state =
        outcome.map fun (parts, rest) => (parts.map Prod.snd, rest)

section

variable {pairs : List (Occurrence × Occurrence)}
  (hpairs : ∀ pair ∈ pairs, pair.2.group = pair.1.group)
include hpairs

/-- It is enough that both occurrences of a pair are in one group. -/
theorem treatedAlike_of_group_eq : TreatedAlike pairs where
  kept_alike := by
    refine ⟨firstOfEach (fun pair => pair.1.group) pairs, firstOfEach_sublist _ _,
      firstOfEach_map _ _ _, ?_⟩
    rw [firstOfEachGroup, firstOfEach_map]
    exact congrArg _ (firstOfEach_congr hpairs)
  partitioned_alike source train validation state := by
    refine ⟨partition (fun pair => pair.1.group) source pairs train validation state,
      fun parts rest => append_perm_of_partition_eq_ok, partition_map _ _ _ _ _ _ _, ?_⟩
    rw [partition_map]
    exact congrArg _ (partition_congr hpairs source train validation state)

theorem together_map_snd {group : String}
    (hfirsts : Together Occurrence.group group (pairs.map Prod.fst)) :
    Together Occurrence.group group (pairs.map Prod.snd) := by
  apply hfirsts.of_map_key_eq
  rw [List.map_map, List.map_map]
  exact List.map_congr_left hpairs

end

namespace Disk

theorem GrowsOff.anchored {places : Set Location} {disk other : Disk}
    (hgrows : GrowsOff places disk other) {place : Location}
    (hplace : disk.Anchored place) : other.Anchored place :=
  fun above habove hne => hgrows.keeps_directory above (hplace above habove hne)

end Disk

namespace Corpus

/-- The path of a record that is loaded ends in a name. -/
theorem endsInName_of_load {corpus : Corpus} {graphPath : String} {disk : Disk}
    {graph : Graph} (hworking : disk.Anchored disk.working)
    (hload : corpus.load graphPath disk = .ok graph) : endsInName graphPath := by
  obtain ⟨_, _, hlookup, _⟩ := exists_file_of_load_eq_ok hload
  rw [← endsInName_joinPath corpus.root]
  exact Disk.endsInName_of_lookup_eq_file hworking hlookup

/-- What is written has been read, so its path ends in a name. -/
theorem Excises.endsInName {source target : Corpus} {place : Nat} {disk after : Disk}
    {items : List (Occurrence × String)} {written : List (Occurrence × Occurrence)}
    {failures : List ItemFailure}
    (hrun : Excises source target place disk items written failures after)
    (hworking : disk.Anchored disk.working) {entry : Occurrence × Occurrence}
    (hentry : entry ∈ written) : endsInName entry.1.graphPath := by
  obtain ⟨middle, _, hgrows, hexcise⟩ := hrun.exists_grown hentry
  obtain ⟨_, _, hload, _⟩ := exists_of_exciseOne_eq_ok hexcise
  apply endsInName_of_load _ hload
  rw [hgrows.working_eq]
  exact hgrows.anchored hworking

/-- Numbers behind the stem of a path that ends in a name tell paths apart and keep
their group.  The rows of a modified corpus have such paths, in the order of the
occurrences, and each row is in the group of its occurrence.  So groups that lay together
lie together, and the rows are treated like the occurrences that they come from, which
are all of them if none fails.  Of the disk it is only asked that everything above its
working directory is a directory, so that no path leads up to a file. -/
theorem numbered_rows_keep_groups :
    (∀ path, endsInName path →
      (∀ number, groupKey (numberedPath path number) = groupKey path) ∧
        ∀ number count, numberedPath path number = numberedPath path count →
          number = count) ∧
      ∀ (source target : Corpus) (occurrences : List Occurrence) (disk : Disk),
        disk.Anchored disk.working →
        ∃ written report,
          (source.exciseAll target occurrences).run disk =
              (.ok (written.map Prod.snd, report),
                source.excisedDisk target occurrences disk) ∧
            (written.map Prod.fst).Sublist occurrences ∧
            (report.failures = [] → written.map Prod.fst = occurrences) ∧
            (∀ entry ∈ written,
              (∃ number, entry.2.graphPath = numberedPath entry.1.graphPath number) ∧
                entry.2.group = entry.1.group) ∧
            (∀ group, Together Occurrence.group group occurrences →
              Together Occurrence.group group (written.map Prod.snd)) ∧
            TreatedAlike written := by
  refine ⟨fun path hpath => ⟨groupKey_numberedPath hpath, fun _ _ => numberedPath_inj.mp⟩,
    fun source target occurrences disk hworking => ?_⟩
  obtain ⟨written, report, hrun, hexcises, htotal, hsucceeded, hsum⟩ :=
    exists_run_exciseAll source target occurrences disk
  have hsublist := hexcises.sublist_occurrences
  have hrows : ∀ entry ∈ written,
      (∃ number, entry.2.graphPath = numberedPath entry.1.graphPath number) ∧
        entry.2.group = entry.1.group := by
    rintro ⟨occurrence, row⟩ hentry
    obtain ⟨destination, hitem, rfl⟩ := hexcises.exists_item hentry
    obtain ⟨number, rfl⟩ := exists_number_of_mem hitem
    exact ⟨⟨number, rfl⟩,
      groupKey_numberedPath (hexcises.endsInName hworking hentry) number⟩
  have hgroups : ∀ entry ∈ written, entry.2.group = entry.1.group :=
    fun entry hentry => (hrows entry hentry).2
  refine ⟨written, report, hrun, hsublist, fun hnone => ?_, hrows, fun group hgroup => ?_,
    treatedAlike_of_group_eq hgroups⟩
  · apply hsublist.eq_of_length
    rw [hnone] at hsum
    rw [List.length_map, ← hsucceeded, ← htotal, ← hsum]
    rfl
  · exact together_map_snd hgroups (hgroup.of_sublist hsublist)

/-- Three occurrences of a record whose stem ends with a digit, one of them without a
root. -/
theorem numbered_rows_keep_groups_of_three :
    let word (id : UInt64) (contents : String) : Node :=
      ⟨id, .token, contents, 3, 3, 0, 1⟩
    let graph : Graph := ⟨"A.java", [word 1 "log", word 2 ";", word 3 "LOG", word 4 ";"],
      [⟨1, 3, .nextToken⟩]⟩
    let entries : List (Location × Entry) := [(["raw"], .directory),
      (["raw", "Foo7.proto"], .file (.bytes graph.toRecord))]
    let disk : Disk := { entries := .ofList entries }
    let source : Corpus := ⟨"/raw"⟩
    let target : Corpus := ⟨"/new"⟩
    let found (root : Option UInt64) : Occurrence := ⟨"Foo7.proto", .info, "m", root, none⟩
    let occurrences : List Occurrence := [found (some 1), found none, found (some 3)]
    let row (path : String) : Occurrence := ⟨path, .info, "m", none, none⟩
    let rows : List Occurrence := [row "Foo71.proto", row "Foo73.proto"]
    disk.Anchored disk.working ∧ endsInName "raw/Foo7.proto" ∧
      groupKey (numberedPath "raw/Foo7.proto" 12) = groupKey "raw/Foo7.proto" ∧
      ((source.exciseAll target occurrences).run disk).1.map Prod.fst = .ok rows ∧
      ∃ written : List (Occurrence × Occurrence),
        (written.map Prod.fst).Sublist occurrences ∧
          written.map Prod.snd = rows ∧
          (∀ entry ∈ written, entry.2.group = entry.1.group) ∧ TreatedAlike written := by
  intro word graph entries disk source target found occurrences row rows
  have hworking : disk.Anchored disk.working := disk.anchored_nil
  have hpath : endsInName "raw/Foo7.proto" := by
    decide +kernel
  have hrows : ((source.exciseAll target occurrences).run disk).1.map Prod.fst =
      .ok rows := by
    decide +kernel
  obtain ⟨hpaths, hcorpora⟩ := numbered_rows_keep_groups
  obtain ⟨written, report, hrun, hsublist, _, hgroups, _, halike⟩ :=
    hcorpora source target occurrences disk hworking
  have hindex : written.map Prod.snd = rows := by
    rw [hrun] at hrows
    exact Except.ok.inj hrows
  refine ⟨hworking, hpath, (hpaths _ hpath).1 12, hrows, written, hsublist, hindex,
    fun entry hentry => (hgroups entry hentry).2, halike⟩

end Corpus

end LogCorpus
