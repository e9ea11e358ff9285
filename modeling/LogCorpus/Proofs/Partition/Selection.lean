/-
Partitions of a selection with one occurrence of each group.

Where no group comes twice no run lies behind a cut.  Then neither pass moves an item
and neither is at fault, so the cuts alone give the parts.
-/
import LogCorpus.Conversion.Run
import LogCorpus.Proofs.Distinct
import LogCorpus.Proofs.Partition.Rebalancing

namespace LogCorpus

/-- An item behind a cut is at another place than the one in front of it. -/
theorem runBehind_eq_nil {group : α → String} {items : List α}
    (hitems : (items.map group).Nodup) (start stop : Nat) :
    runBehind group items start stop = [] := by
  rw [List.eq_nil_iff_forall_not_mem]
  intro item hitem
  obtain ⟨last, hlast, hgroup⟩ := exists_of_mem_runBehind hitem
  have hfront : last ∈ items.take start := by
    cases start with
    | zero => cases hlast
    | succ place =>
        apply List.mem_of_getElem? (i := place)
        rw [List.getElem?_take_of_lt (Nat.lt_succ_self place)]
        exact hlast
  have hback : item ∈ items.drop start := by
    have hmem := (runBehind_isPrefix group items start stop).mem hitem
    rw [List.drop_take] at hmem
    exact List.mem_of_mem_take hmem
  rw [← List.take_append_drop start items, List.map_append, List.nodup_append] at hitems
  exact hitems.2.2 _ (List.mem_map_of_mem hfront) _ (List.mem_map_of_mem hback) hgroup.symm

/-- Where no run lies behind a cut, both passes leave the parts as they are. -/
theorem partitionAt_of_nodup {group : α → String} {items : List α} {cuts : Cuts}
    (hitems : (items.map group).Nodup) (hcuts : cuts.validation ≤ cuts.test)
    (htest : cuts.test ≤ items.length) :
    partitionAt group items cuts = .ok ⟨items.take cuts.validation,
      (items.take cuts.test).drop cuts.validation, items.drop cuts.test⟩ := by
  rw [partitionAt_eq group htest hcuts]
  simp only [runBehind_eq_nil hitems, List.length_nil, Nat.lt_irrefl, false_and, if_false,
    Nat.add_zero]
  by_cases hkept : cuts.validation < cuts.test
  · rw [if_pos hkept]
  · have hsame : cuts.validation = cuts.test := by omega
    have hempty : (items.take cuts.test).drop cuts.test = [] :=
      List.drop_eq_nil_of_le (List.length_take_le _ _)
    rw [if_neg hkept, hsame, hempty]

section

variable {group : α → String} {items : List α} (hitems : (items.map group).Nodup)
include hitems

/-- Where no group comes twice, no run lies behind a cut. -/
theorem splitByPosition_of_nodup (train validation : Float) :
    let cuts := cutPoints items.length train validation
    splitByPosition group items train validation = .ok ⟨items.take cuts.validation,
      (items.take cuts.test).drop cuts.validation, items.drop cuts.test⟩ :=
  partitionAt_of_nodup hitems (validation_cutPoints_le _ _ _) (test_cutPoints_le _ _ _)

/-- The shuffled parts are as long as the cuts make them. -/
theorem exists_partition_of_nodup (source : WordSource σ) (train validation : Float)
    (state : σ) :
    let cuts := cutPoints items.length train validation
    ∃ parts rest, partition group source items train validation state = .ok (parts, rest) ∧
      parts.train.length = cuts.validation ∧
      parts.validation.length = cuts.test - cuts.validation ∧
      parts.test.length = items.length - cuts.test := by
  intro cuts
  have hcuts : cuts.validation ≤ cuts.test := validation_cutPoints_le _ _ _
  have htest : cuts.test ≤ items.length := test_cutPoints_le _ _ _
  have hsplit : splitByPosition group items train validation =
      .ok ⟨items.take cuts.validation, (items.take cuts.test).drop cuts.validation,
        items.drop cuts.test⟩ :=
    splitByPosition_of_nodup hitems train validation
  have hlength (parts : Partition α) (part : Part) :
      ((parts.shuffle source state).1.items part).length = (parts.items part).length :=
    (Partition.items_shuffle_perm source parts state part).length_eq
  refine ⟨_, _, by rw [partition, hsplit]; rfl, (hlength _ .train).trans ?_,
    (hlength _ .validation).trans ?_, (hlength _ .test).trans ?_⟩
  · simp only [Partition.items, List.length_take]
    omega
  · simp only [Partition.items, List.length_drop, List.length_take]
    omega
  · exact List.length_drop

end

theorem nodup_map_group_selectOccurrences {config : Configuration}
    (hconfig : config.disallowSameClass = true) (occurrences : List Occurrence) :
    ((selectOccurrences config occurrences).map Occurrence.group).Nodup := by
  rw [selectOccurrences, if_pos hconfig]
  exact nodup_map_firstOfEach Occurrence.group _

/-- Of each group the first occurrence is kept and no other, in the order of the list,
and to select once more changes nothing.  So a run that allows no group twice can cut its
occurrences anywhere: no pass is at fault, and the parts are as long as the cuts make
them. -/
theorem firstOfEachGroup_partitions (occurrences : List Occurrence) :
    let kept := firstOfEachGroup occurrences
    kept.Sublist occurrences ∧
      (kept.map Occurrence.group).Nodup ∧
      kept = (occurrences.zipIdx.filter fun entry =>
        entry.1.group ∉ (occurrences.take entry.2).map Occurrence.group).map Prod.fst ∧
      (∀ group, (kept.filter fun occurrence => occurrence.group = group) =
        (occurrences.find? fun occurrence => occurrence.group = group).toList) ∧
      firstOfEachGroup kept = kept ∧
      ∀ config : Configuration, config.disallowSameClass = true →
        ∀ (source : WordSource σ) (state : σ) (train validation : Float),
          let selected := selectOccurrences config occurrences
          let cuts := cutPoints selected.length train validation
          splitByPosition Occurrence.group selected train validation =
              .ok ⟨selected.take cuts.validation,
                (selected.take cuts.test).drop cuts.validation, selected.drop cuts.test⟩ ∧
            ∃ parts rest,
              partition Occurrence.group source selected train validation state =
                  .ok (parts, rest) ∧
                parts.train.length = cuts.validation ∧
                parts.validation.length = cuts.test - cuts.validation ∧
                parts.test.length = selected.length - cuts.test := by
  intro kept
  have hkept : (kept.map Occurrence.group).Nodup := nodup_map_firstOfEach _ occurrences
  refine ⟨firstOfEach_sublist _ _, hkept, firstOfEach_eq_map_filter _ _,
    filter_firstOfEach _ _, firstOfEach_eq_self hkept, ?_⟩
  intro config hconfig source state train validation
  have hselected := nodup_map_group_selectOccurrences hconfig occurrences
  exact ⟨splitByPosition_of_nodup hselected train validation,
    exists_partition_of_nodup hselected source train validation state⟩

/-- Six occurrences of four groups, of which a run takes the first five. -/
theorem firstOfEachGroup_partitions_of_six :
    let occurrences : List Occurrence := ["A1.java", "B.java", "A2.java", "C1.java",
      "D.java", "C2.java"].map fun path => ⟨path, .info, "started", none, none⟩
    let config : Configuration := { limit := some 5, disallowSameClass := true }
    let source : WordSource Nat := fun state => (0, state + 1)
    let selected := selectOccurrences config occurrences
    selected.map Occurrence.graphPath = ["A1.java", "B.java", "C1.java", "D.java"] ∧
      cutPoints selected.length 0.75 0.5 = ⟨3, 2⟩ ∧
      ∃ parts rest,
        partition Occurrence.group source selected 0.75 0.5 0 = .ok (parts, rest) ∧
          parts.train.length = 2 ∧ parts.validation.length = 1 ∧ parts.test.length = 1 := by
  intro occurrences config source selected
  have hselected : selected.map Occurrence.graphPath =
      ["A1.java", "B.java", "C1.java", "D.java"] := by
    decide +kernel
  have hcuts : cutPoints selected.length 0.75 0.5 = ⟨3, 2⟩ := by
    decide +kernel
  have hlength : selected.length = 4 := by
    decide +kernel
  obtain ⟨_, _, _, _, _, hruns⟩ := firstOfEachGroup_partitions (σ := Nat) occurrences
  obtain ⟨_, hparts⟩ := hruns config rfl source 0 0.75 0.5
  rw [hcuts, hlength] at hparts
  exact ⟨hselected, hcuts, hparts⟩

end LogCorpus
