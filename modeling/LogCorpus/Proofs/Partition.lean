/-
Partitions and their borders.

Rebalancing moves the border between two parts to the end of a group, so the parts
put together are the list that was cut.  Shuffling permutes every part within itself.
-/
import LogCorpus.Conversion.Dataset
import LogCorpus.Proofs.Lists
import LogCorpus.Proofs.Random.Shuffle
import LogCorpus.Proofs.Stateful
import Mathlib.Data.List.TakeWhile

namespace LogCorpus

/-- The last item of the first list and the first one of the second have different
keys, unless one of the lists is empty. -/
def Apart (key : α → κ) (earlier later : List α) : Prop :=
  ∀ last ∈ earlier.getLast?, ∀ first ∈ later.head?, key last ≠ key first

/-- Once the items of the last group have moved, the next one is of another. -/
theorem apart_append_takeWhile {group : α → String} {earlier : List α} {last : α}
    (hlast : earlier.getLast? = some last) (later : List α) :
    Apart group (earlier ++ later.takeWhile fun item => group item = group last)
      (later.dropWhile fun item => group item = group last) := by
  intro final hfinal first hfirst
  have hfinalGroup : group final = group last := by
    rw [Option.mem_def, List.getLast?_append, hlast] at hfinal
    cases hmoved : (later.takeWhile fun item => group item = group last).getLast? with
    | none =>
        rw [hmoved] at hfinal
        rw [Option.some.inj hfinal]
    | some moved =>
        rw [hmoved] at hfinal
        have hsame := List.mem_takeWhile_imp (List.mem_of_getLast? hmoved)
        rw [← Option.some.inj hfinal]
        exact of_decide_eq_true hsame
  have hfirstGroup : group first ≠ group last := by
    have hhead := List.head?_dropWhile_not (fun item => group item = group last) later
    rw [Option.mem_def.mp hfirst] at hhead
    simpa using hhead
  rw [hfinalGroup]
  exact Ne.symm hfirstGroup

/-- Rebalancing moves the border between two parts to the end of a group. -/
theorem exists_moved_of_rebalance_eq_ok {group : α → String} {name : String}
    {earlier later first second : List α}
    (hrebalance : rebalance group name earlier later = .ok (first, second)) :
    ∃ moved, first = earlier ++ moved ∧ later = moved ++ second ∧
      Apart group first second := by
  rw [rebalance] at hrebalance
  split at hrebalance
  · next hlast =>
      injection hrebalance with heq
      injection heq with hfirst hsecond
      subst hfirst hsecond
      refine ⟨[], by simp, rfl, fun last hmem => ?_⟩
      rw [hlast] at hmem
      cases hmem
  · next last hlast =>
      have hapart : Apart group _ _ := apart_append_takeWhile hlast later
      have hsplit := List.takeWhile_append_dropWhile (l := later)
        (p := fun item => group item = group last)
      by_cases hnone : (later.takeWhile fun item => group item = group last).length = 0
      · rw [if_pos hnone] at hrebalance
        injection hrebalance with heq
        injection heq with hfirst hsecond
        subst hfirst hsecond
        rw [List.length_eq_zero_iff.mp hnone] at hapart hsplit
        rw [List.nil_append] at hsplit
        rw [hsplit, List.append_nil] at hapart
        exact ⟨[], by simp, rfl, hapart⟩
      · rw [if_neg hnone] at hrebalance
        split at hrebalance
        · cases hrebalance
        · injection hrebalance with heq
          injection heq with hfirst hsecond
          have hdrop : second = later.dropWhile fun item => group item = group last :=
            hsecond.symm.trans (((congrArg (List.drop _) hsplit).symm).trans
              List.drop_left)
          rw [hfirst, ← hdrop] at hapart
          exact ⟨_, hfirst.symm, by rw [hdrop, hsplit], hapart⟩

/-- A partition comes from two passes: the first between the train and the
validation part, the second in front of the test part. -/
theorem exists_passes_of_partitionAt_eq_ok {group : α → String} {items : List α}
    {cuts : Cuts} {parts : Partition α}
    (hpartition : partitionAt group items cuts = .ok parts) :
    ∃ train validation,
      rebalance group "validation" (items.take cuts.validation)
          ((items.take cuts.test).drop cuts.validation) = .ok (train, validation) ∧
        (validation = [] ∧ parts.validation = [] ∧
            rebalance group "test" train (items.drop cuts.test) =
              .ok (parts.train, parts.test) ∨
          validation ≠ [] ∧ parts.train = train ∧
            rebalance group "test" validation (items.drop cuts.test) =
              .ok (parts.validation, parts.test)) := by
  obtain ⟨⟨train, validation⟩, hfirst, hrest⟩ := exists_of_bind_eq_ok hpartition
  refine ⟨train, validation, hfirst, ?_⟩
  by_cases hempty : validation.isEmpty
  · left
    obtain ⟨⟨front, test⟩, hsecond, hdone⟩ := exists_of_bind_eq_ok
      ((if_pos hempty).symm.trans hrest)
    injection hdone with hdone
    rw [← hdone]
    exact ⟨List.isEmpty_iff.mp hempty, List.isEmpty_iff.mp hempty, hsecond⟩
  · right
    obtain ⟨⟨middle, test⟩, hsecond, hdone⟩ := exists_of_bind_eq_ok
      ((if_neg hempty).symm.trans hrest)
    injection hdone with hdone
    rw [← hdone]
    exact ⟨fun hnil => hempty (List.isEmpty_iff.mpr hnil), rfl, hsecond⟩

theorem append_of_partitionAt_eq_ok {group : α → String} {items : List α}
    {cuts : Cuts} {parts : Partition α} (hcuts : cuts.validation ≤ cuts.test)
    (hpartition : partitionAt group items cuts = .ok parts) :
    parts.train ++ (parts.validation ++ parts.test) = items := by
  obtain ⟨train, validation, hfirst, hrest⟩ :=
    exists_passes_of_partitionAt_eq_ok hpartition
  obtain ⟨moved, htrain, hvalidation, _⟩ := exists_moved_of_rebalance_eq_ok hfirst
  have hall : train ++ (validation ++ items.drop cuts.test) = items := by
    rw [htrain, List.append_assoc, ← List.append_assoc moved, ← hvalidation,
      take_append_between items hcuts]
  rcases hrest with ⟨rfl, hempty, hsecond⟩ | ⟨_, hsame, hsecond⟩
  · obtain ⟨more, hmore, htest, _⟩ := exists_moved_of_rebalance_eq_ok hsecond
    rw [htest] at hall
    rw [hempty, hmore, List.append_assoc]
    exact hall
  · obtain ⟨more, hmore, htest, _⟩ := exists_moved_of_rebalance_eq_ok hsecond
    rw [htest] at hall
    rw [hsame, hmore, List.append_assoc]
    exact hall

/-- The parts put together are the list. -/
theorem append_of_splitByPosition_eq_ok {group : α → String} {items : List α}
    {train validation : Float} {parts : Partition α}
    (hsplit : splitByPosition group items train validation = .ok parts) :
    parts.train ++ (parts.validation ++ parts.test) = items :=
  append_of_partitionAt_eq_ok (Nat.min_le_right _ _) hsplit

/-- A single item can be cut anywhere. -/
theorem exists_partitionAt_singleton (group : α → String) (item : α) {cuts : Cuts}
    (hcuts : cuts.validation ≤ cuts.test) :
    ∃ parts, partitionAt group [item] cuts = .ok parts := by
  obtain ⟨test, validation⟩ := cuts
  cases test with
  | zero =>
      have hzero : validation = 0 := Nat.le_zero.mp hcuts
      subst hzero
      exact ⟨⟨[], [], [item]⟩, rfl⟩
  | succ test =>
      cases validation with
      | zero =>
          simp only [partitionAt, List.take_succ_cons, List.take_nil,
            List.drop_succ_cons, List.drop_nil]
          exact ⟨⟨[], [item], []⟩, rfl⟩
      | succ validation =>
          simp only [partitionAt, List.take_succ_cons, List.take_nil,
            List.drop_succ_cons, List.drop_nil]
          exact ⟨⟨[item], [], []⟩, rfl⟩

theorem exists_splitByPosition_singleton (group : α → String) (item : α)
    (train validation : Float) :
    ∃ parts, splitByPosition group [item] train validation = .ok parts :=
  exists_partitionAt_singleton group item (Nat.min_le_right _ _)

theorem mem_of_mem_items {group : α → String} {items : List α}
    {train validation : Float} {parts : Partition α}
    (hsplit : splitByPosition group items train validation = .ok parts)
    {part : Part} {item : α} (hitem : item ∈ parts.items part) : item ∈ items := by
  rw [← append_of_splitByPosition_eq_ok hsplit, List.mem_append, List.mem_append]
  cases part with
  | train => exact Or.inl hitem
  | validation => exact Or.inr (Or.inl hitem)
  | test => exact Or.inr (Or.inr hitem)

/-- A single item lies in one of the parts. -/
theorem Partition.exists_items_eq_singleton {parts : Partition α} {item : α}
    (happend : parts.train ++ (parts.validation ++ parts.test) = [item]) :
    ∃ part, parts.items part = [item] ∧
      ∀ other, other ≠ part → parts.items other = [] := by
  rcases List.append_eq_singleton_iff.mp happend with ⟨htrain, hrest⟩ | ⟨htrain, hrest⟩
  · rcases List.append_eq_singleton_iff.mp hrest with
      ⟨hvalidation, htest⟩ | ⟨hvalidation, htest⟩
    · refine ⟨.test, htest, fun other hother => ?_⟩
      cases other with
      | train => exact htrain
      | validation => exact hvalidation
      | test => exact absurd rfl hother
    · refine ⟨.validation, hvalidation, fun other hother => ?_⟩
      cases other with
      | train => exact htrain
      | validation => exact absurd rfl hother
      | test => exact htest
  · obtain ⟨hvalidation, htest⟩ := List.append_eq_nil_iff.mp hrest
    refine ⟨.train, htrain, fun other hother => ?_⟩
    cases other with
    | train => exact absurd rfl hother
    | validation => exact hvalidation
    | test => exact htest

/-- Every part is permuted within itself. -/
theorem Partition.items_shuffle_perm (source : WordSource σ) (parts : Partition α)
    (state : σ) (part : Part) :
    ((parts.shuffle source state).1.items part).Perm (parts.items part) := by
  cases part with
  | train => exact shuffle_perm source parts.train state
  | validation => exact shuffle_perm source parts.validation _
  | test => exact shuffle_perm source parts.test _

end LogCorpus
