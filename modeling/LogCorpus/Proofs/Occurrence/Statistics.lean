/-
Statistics count every occurrence.

Every severity is listed once, so the counts of the severities add up to the number of
occurrences.  Files and groups are counted by their first occurrences or by the sets that
a pass collects, which comes to the same.  Statistics see the path and the severity of an
occurrence and nothing else, and they do not see the order, so an index has those of the
occurrences that it was written from.
-/
import LogCorpus.Occurrence.Statistics
import LogCorpus.Proofs.Distinct
import LogCorpus.Proofs.Lists
import LogCorpus.Proofs.Occurrence.Index

namespace LogCorpus

/-! ### Severities -/

namespace Severity

theorem nodup_all : all.Nodup := by
  decide

theorem rank_inj {severity other : Severity} (hsame : severity.rank = other.rank) :
    severity = other :=
  eq_of_place_eq all_getElem?_rank hsame

instance : Std.TransOrd Severity :=
  inferInstanceAs (Std.TransCmp (compareOn rank))

instance : Std.LawfulEqOrd Severity where
  eq_of_compare hsame := rank_inj (Std.LawfulEqOrd.eq_of_compare hsame)

theorem pairwise_all : all.Pairwise fun severity other => severity.rank < other.rank := by
  decide

end Severity

/-! ### One pass -/

/-- What a tally holds after some occurrences. -/
structure Tally.Covers (front : List Occurrence) (tally : Tally) : Prop where
  perSeverity : ∀ severity : Severity, tally.perSeverity[severity]? =
    some (front.countP fun occurrence => occurrence.severity = severity)
  files : Collects (front.map Occurrence.graphPath) tally.files
  groups : Collects (front.map Occurrence.group) tally.groups

namespace Tally

variable {front : List Occurrence} {tally : Tally}

theorem covers_nil : Covers [] {} where
  perSeverity severity := by
    apply Std.TreeMap.getElem?_ofList_of_mem Std.ReflOrd.compare_self
    · decide +kernel
    · exact List.mem_map.mpr ⟨severity, severity.mem_all, rfl⟩
  files := collects_nil
  groups := collects_nil

theorem Covers.step (htally : tally.Covers front) (occurrence : Occurrence) :
    (tally.step occurrence).Covers (front ++ [occurrence]) where
  perSeverity severity := by
    rw [Tally.step, Std.TreeMap.getElem?_alter, htally.perSeverity, htally.perSeverity,
      List.countP_append]
    by_cases hsame : occurrence.severity = severity <;> simp [hsame]
  files := by
    rw [List.map_append]
    exact htally.files.insert occurrence.graphPath
  groups := by
    rw [List.map_append]
    exact htally.groups.insert occurrence.group

theorem covers_foldl (occurrences : List Occurrence) :
    (occurrences.foldl Tally.step {}).Covers occurrences :=
  foldl_of_step Covers.step covers_nil occurrences

/-- Every severity is listed with its count, in ascending order. -/
theorem Covers.toList_perSeverity (htally : tally.Covers front) :
    tally.perSeverity.toList = Severity.all.map fun severity =>
      (severity, front.countP fun occurrence => occurrence.severity = severity) := by
  apply eq_of_ascending fun entry : Severity × Nat => entry.1.rank
  · apply (Std.TreeMap.ordered_keys_toList (t := tally.perSeverity)).imp
    exact fun {first second} hlt =>
      Nat.compare_eq_lt.mp (hlt : compare first.1.rank second.1.rank = .lt)
  · exact List.pairwise_map.mpr Severity.pairwise_all
  · rintro ⟨severity, count⟩
    rw [Std.TreeMap.mem_toList_iff_getElem?_eq_some, htally.perSeverity]
    simp [Severity.mem_all]

end Tally

namespace Statistics

/-- One pass finds the statistics. -/
theorem tallied_eq (occurrences : List Occurrence) :
    tallied occurrences = ofOccurrences occurrences := by
  have htally := Tally.covers_foldl occurrences
  rw [tallied, ofOccurrences, htally.toList_perSeverity, htally.files.size_eq,
    htally.groups.size_eq, length_firstOfEach, length_firstOfEach]

/-! ### Counts of a list -/

/-- Every occurrence is counted under its severity and no other. -/
theorem sum_perSeverity (occurrences : List Occurrence) :
    ((ofOccurrences occurrences).perSeverity.map Prod.snd).sum = occurrences.length := by
  rw [ofOccurrences, List.map_map]
  exact sum_countP_eq_length Severity.nodup_all fun row _ => Severity.mem_all row.severity

theorem count_ofOccurrences (occurrences : List Occurrence) (severity : Severity) :
    (ofOccurrences occurrences).count severity =
      occurrences.countP fun occurrence => occurrence.severity = severity := by
  have hkeys : ((ofOccurrences occurrences).perSeverity.map Prod.fst).Nodup := by
    simpa [ofOccurrences, Function.comp_def] using Severity.nodup_all
  have hlisted : (ofOccurrences occurrences).perSeverity.lookup severity =
      some (occurrences.countP fun occurrence => occurrence.severity = severity) :=
    (lookup_eq_some_iff_mem hkeys).mpr (List.mem_map.mpr ⟨severity, severity.mem_all, rfl⟩)
  rw [count, hlisted, Option.getD_some]

/-- An occurrence has one file, and several occurrences may share it. -/
theorem files_le_total (occurrences : List Occurrence) :
    (ofOccurrences occurrences).files ≤ (ofOccurrences occurrences).total :=
  (firstOfEach_sublist Occurrence.graphPath occurrences).length_le

/-- A file has one group, and several files may share it. -/
theorem groups_le_files (occurrences : List Occurrence) :
    (ofOccurrences occurrences).groups ≤ (ofOccurrences occurrences).files := by
  have himage : (occurrences.map Occurrence.group).toFinset =
      (occurrences.map Occurrence.graphPath).toFinset.image groupKey := by
    ext group
    simp [Occurrence.group]
  simp only [ofOccurrences, length_firstOfEach, himage]
  exact Finset.card_image_le

/-! ### What statistics see -/

/-- What statistics see of an occurrence. -/
def seen (occurrence : Occurrence) : String × Severity :=
  (occurrence.graphPath, occurrence.severity)

theorem ofOccurrences_eq (occurrences : List Occurrence) :
    let pairs := occurrences.map seen
    ofOccurrences occurrences =
      { total := pairs.length
        perSeverity := Severity.all.map fun severity =>
          (severity, pairs.countP fun pair => pair.2 = severity)
        files := (pairs.map Prod.fst).toFinset.card
        groups := (pairs.map fun pair => groupKey pair.1).toFinset.card } := by
  intro pairs
  simp only [pairs, ofOccurrences, length_firstOfEach, List.length_map, List.countP_map,
    List.map_map]
  rfl

/-- Lists of the same paths and severities have the same statistics. -/
theorem ofOccurrences_congr {occurrences others : List Occurrence}
    (hsame : (others.map seen).Perm (occurrences.map seen)) :
    ofOccurrences others = ofOccurrences occurrences := by
  have hcount (severity : Severity) :=
    hsame.countP_eq fun pair => decide (pair.2 = severity)
  have hfiles := List.toFinset_eq_of_perm _ _ (hsame.map Prod.fst)
  have hgroups := List.toFinset_eq_of_perm _ _ (hsame.map fun pair => groupKey pair.1)
  simp only [ofOccurrences_eq, hsame.length_eq, hcount, hfiles, hgroups]

/-- Statistics that are found in one pass agree with what else is known of the list.  The
counts of the severities add up to its length; as many groups are counted as occurrences
are kept when only the first one of each group is; no more groups are counted than files
and no more files than occurrences.  A list in another order has the same statistics, and
so has the list that an index of it is read as. -/
theorem counts_of_tallied (occurrences : List Occurrence) :
    let statistics := tallied occurrences
    statistics = ofOccurrences occurrences ∧
      statistics.total = occurrences.length ∧
      statistics.perSeverity =
        Severity.all.map (fun severity => (severity, statistics.count severity)) ∧
      (∀ severity, statistics.count severity =
        occurrences.countP fun occurrence => occurrence.severity = severity) ∧
      (statistics.perSeverity.map Prod.snd).sum = statistics.total ∧
      statistics.files = (occurrences.map Occurrence.graphPath).toFinset.card ∧
      statistics.groups = (firstOfEachGroup occurrences).length ∧
      statistics.groups ≤ statistics.files ∧
      statistics.files ≤ statistics.total ∧
      (∀ others, others.Perm occurrences → tallied others = statistics) ∧
      ∃ rows, parseIndex (utf8 (renderIndex occurrences)) = .ok rows ∧
        tallied rows = statistics := by
  intro statistics
  have hstatistics : statistics = ofOccurrences occurrences := tallied_eq occurrences
  have hseen : (occurrences.map Occurrence.indexed).map seen = occurrences.map seen := by
    rw [List.map_map]
    rfl
  refine ⟨hstatistics, ?_⟩
  rw [hstatistics]
  refine ⟨rfl, ?_, count_ofOccurrences occurrences, sum_perSeverity occurrences,
    length_firstOfEach Occurrence.graphPath occurrences, rfl, groups_le_files occurrences,
    files_le_total occurrences, ?_, _, parseIndex_renderIndex occurrences, ?_⟩
  · simp only [count_ofOccurrences]
    rfl
  · intro others hothers
    rw [tallied_eq]
    exact ofOccurrences_congr (hothers.map seen)
  · rw [tallied_eq]
    exact ofOccurrences_congr (by rw [hseen])

/-- Four occurrences in three files of two groups, with lines, and the other way round. -/
theorem counts_of_tallied_of_four :
    let occurrences : List Occurrence :=
      [⟨"a/Foo1.java.proto", .info, "started", some 1, some 3⟩,
        ⟨"b/Foo12.java.proto", .warn, "slow", none, none⟩,
        ⟨"a/Bar.java.proto", .info, "started", some 7, none⟩,
        ⟨"a/Foo1.java.proto", .fatal, "stopped", some 9, some 8⟩]
    let counts : Statistics := ⟨4, [(.trace, 0), (.debug, 0), (.info, 2), (.warn, 1),
      (.error, 0), (.fatal, 1)], 3, 2⟩
    tallied occurrences = counts ∧
      occurrences.reverse.Perm occurrences ∧
      tallied occurrences.reverse = counts ∧
      ∃ rows, parseIndex (utf8 (renderIndex occurrences)) = .ok rows ∧
        tallied rows = counts := by
  intro occurrences counts
  have hcounts : tallied occurrences = counts := by
    decide +kernel
  obtain ⟨_, _, _, _, _, _, _, _, _, hothers, rows, hparse, hrows⟩ :=
    counts_of_tallied occurrences
  have hreverse := occurrences.reverse_perm
  exact ⟨hcounts, hreverse, (hothers _ hreverse).trans hcounts, rows, hparse,
    hrows.trans hcounts⟩

end Statistics

end LogCorpus
