/-
What rebalancing moves.

Behind each cut of a list lies a run: the items that belong to the group of the item
just in front of the cut, up to the first of another group.  Rebalancing moves these
runs and nothing else, and it fails exactly where a run is all of a part that has items.
-/
import LogCorpus.Proofs.Partition.Conservation

namespace LogCorpus

/-- The item just in front of a place. -/
def itemBefore? (items : List α) : Nat → Option α
  | 0 => none
  | place + 1 => items[place]?

/-- The item at a place belongs to the group of the item just in front of `start`. -/
def Continues (group : α → String) (items : List α) (start place : Nat) : Prop :=
  ∃ last item, itemBefore? items start = some last ∧ items[place]? = some item ∧
    group item = group last

/-- Of the items from `start` on, in front of `stop`, the first `count` belong to the
group of the item just in front of `start`, and the next one, if there is one, does
not. -/
structure IsLongestRun (group : α → String) (items : List α)
    (start stop count : Nat) : Prop where
  add_le : start + count ≤ stop
  continues : ∀ place, start ≤ place → place < start + count →
    Continues group items start place
  ends : start + count < stop → ¬ Continues group items start (start + count)

theorem IsLongestRun.unique {group : α → String} {items : List α}
    {start stop count other : Nat} (hcount : IsLongestRun group items start stop count)
    (hother : IsLongestRun group items start stop other) : count = other := by
  have hcountLe := hcount.add_le
  have hotherLe := hother.add_le
  rcases Nat.lt_trichotomy count other with hlt | heq | hgt
  · exact absurd (hother.continues _ (by omega) (by omega)) (hcount.ends (by omega))
  · exact heq
  · exact absurd (hcount.continues _ (by omega) (by omega)) (hother.ends (by omega))

theorem getLast?_take_eq {items : List α} {start : Nat} (hstart : start ≤ items.length) :
    (items.take start).getLast? = itemBefore? items start := by
  cases start with
  | zero => rfl
  | succ place =>
      rw [List.getLast?_take, if_neg (Nat.succ_ne_zero place), Nat.add_sub_cancel,
        List.getElem?_eq_getElem hstart]
      exact (List.getElem?_eq_getElem hstart).symm

/-- The run behind a cut. -/
def runBehind (group : α → String) (items : List α) (start stop : Nat) : List α :=
  match itemBefore? items start with
  | none => []
  | some last =>
      ((items.take stop).drop start).takeWhile fun item => group item = group last

theorem runBehind_isPrefix (group : α → String) (items : List α) (start stop : Nat) :
    (runBehind group items start stop).IsPrefix ((items.take stop).drop start) := by
  rw [runBehind]
  split
  · exact List.nil_prefix
  · exact List.takeWhile_prefix _

theorem length_runBehind_le (group : α → String) (items : List α) (start stop : Nat) :
    (runBehind group items start stop).length ≤ stop - start := by
  apply (runBehind_isPrefix group items start stop).length_le.trans
  rw [List.length_drop, List.length_take]
  omega

/-- The item behind all that pass a test does not pass it. -/
theorem not_of_getElem?_length_takeWhile {test : α → Bool} {items : List α} {item : α}
    (hitem : items[(items.takeWhile test).length]? = some item) : test item = false := by
  have hhead : (items.dropWhile test).head? = some item := by
    rw [← hitem, List.head?_eq_getElem?]
    calc (items.dropWhile test)[0]?
        = (items.takeWhile test ++ items.dropWhile test)[(items.takeWhile test).length]? := by
          rw [List.getElem?_append_right (Nat.le_refl _), Nat.sub_self]
      _ = items[(items.takeWhile test).length]? := by rw [List.takeWhile_append_dropWhile]
  have hfirst := List.head?_dropWhile_not test items
  rw [hhead] at hfirst
  simpa using hfirst

theorem exists_of_mem_runBehind {group : α → String} {items : List α}
    {start stop : Nat} {item : α} (hitem : item ∈ runBehind group items start stop) :
    ∃ last, itemBefore? items start = some last ∧ group item = group last := by
  rw [runBehind] at hitem
  split at hitem
  · cases hitem
  · next last hlast =>
      have hgroup := List.mem_takeWhile_imp hitem
      exact ⟨last, hlast, of_decide_eq_true hgroup⟩

/-- The run behind a cut is the longest one. -/
theorem isLongestRun_runBehind (group : α → String) (items : List α)
    {start stop : Nat} (hstart : start ≤ stop) :
    IsLongestRun group items start stop (runBehind group items start stop).length := by
  have hle := length_runBehind_le group items start stop
  have hlater {place : Nat} (hplace : start ≤ place) (hbound : place < stop) :
      ((items.take stop).drop start)[place - start]? = items[place]? := by
    rw [List.getElem?_drop, Nat.add_sub_cancel' hplace, List.getElem?_take_of_lt hbound]
  refine ⟨by omega, fun place hplace hbound => ?_, fun hbound => ?_⟩
  · have hrun : place - start < (runBehind group items start stop).length := by omega
    have hitem := List.prefix_iff_getElem?.mp
      (runBehind_isPrefix group items start stop) _ hrun
    rw [hlater hplace (by omega)] at hitem
    obtain ⟨last, hlast, hgroup⟩ := exists_of_mem_runBehind (List.getElem_mem hrun)
    exact ⟨last, _, hlast, hitem, hgroup⟩
  · rintro ⟨last, item, hlast, hitem, hgroup⟩
    rw [← hlater (Nat.le_add_right _ _) hbound, Nat.add_sub_cancel_left] at hitem
    simp only [runBehind, hlast] at hitem
    exact absurd hgroup (of_decide_eq_false (not_of_getElem?_length_takeWhile hitem :))

/-- There is one longest run behind a cut. -/
theorem isLongestRun_iff (group : α → String) (items : List α) {start stop : Nat}
    (hstart : start ≤ stop) (count : Nat) :
    IsLongestRun group items start stop count ↔
      count = (runBehind group items start stop).length := by
  have hrun := isLongestRun_runBehind group items hstart
  exact ⟨fun hcount => hcount.unique hrun, fun heq => heq ▸ hrun⟩

/-- The last item of a part is the one in front of the next cut, unless the part is empty
and others are in front of it. -/
theorem getLast?_part {items : List α} {first start : Nat}
    (hstart : start ≤ items.length) (hfirst : first < start ∨ first = 0) :
    ((items.take start).drop first).getLast? = itemBefore? items start := by
  rcases hfirst with hlt | rfl
  · have hlength : (items.take start).length = start := List.length_take_of_le hstart
    rw [List.getLast?_drop, hlength, if_neg (Nat.not_le.mpr hlt), getLast?_take_eq hstart]
  · rw [List.drop_zero, getLast?_take_eq hstart]

/-- Moving the start of one part to the end of the part in front of it moves the cut
between them. -/
theorem part_append_take_part (items : List α) {first start stop count : Nat}
    (hfirst : first ≤ start) (hstart : start + count ≤ stop)
    (hstop : stop ≤ items.length) :
    (items.take start).drop first ++ ((items.take stop).drop start).take count =
      (items.take (start + count)).drop first := by
  have hfront : (items.take start).drop first =
      ((items.take (start + count)).take start).drop first := by
    rw [List.take_take, Nat.min_eq_left (Nat.le_add_right start count)]
  have hback : ((items.take stop).drop start).take count =
      (items.take (start + count)).drop start := by
    rw [List.take_drop, List.take_take, Nat.min_eq_left hstart]
  have hlength : first ≤ ((items.take (start + count)).take start).length := by
    simp only [List.length_take]
    omega
  rw [hfront, hback, ← List.drop_append_of_le_length hlength, List.take_append_drop]

/-- A pass moves the run behind its cut, unless that is all of a part with items. -/
theorem rebalance_parts (group : α → String) (name : String) {items : List α}
    {first start stop : Nat} (hfirst : first < start ∨ first = 0)
    (hstart : start ≤ stop) (hstop : stop ≤ items.length) :
    rebalance group name ((items.take start).drop first) ((items.take stop).drop start) =
      let count := (runBehind group items start stop).length
      if 0 < count ∧ count = stop - start then .error (.partitionTooSmall name)
      else .ok ((items.take (start + count)).drop first,
        (items.take stop).drop (start + count)) := by
  have hrunLe := length_runBehind_le group items start stop
  have hlength : ((items.take stop).drop start).length = stop - start := by
    rw [List.length_drop, List.length_take, Nat.min_eq_left hstop]
  rw [rebalance, getLast?_part (Nat.le_trans hstart hstop) hfirst]
  cases hlast : itemBefore? items start with
  | none => simp [runBehind, hlast]
  | some last =>
      have hrun : runBehind group items start stop =
          ((items.take stop).drop start).takeWhile fun item => group item = group last := by
        simp only [runBehind, hlast]
      have htake := List.prefix_iff_eq_take.mp (runBehind_isPrefix group items start stop)
      simp only [← hrun, hlength]
      rw [htake, part_append_take_part items (by omega) (by omega) hstop, ← htake,
        List.drop_drop]
      by_cases hnone : (runBehind group items start stop).length = 0
      · rw [if_pos hnone, if_neg (by omega), hnone, Nat.add_zero]
      · rw [if_neg hnone]
        simp only [Nat.pos_of_ne_zero hnone, true_and]

/-- The pass in front of the test part.  It moves items to the validation part or, if
that is empty, to the train part. -/
def rebalanceTest (group : α → String) (train validation test : List α) :
    Except Fault (Partition α) :=
  if validation.isEmpty then do
    let (train, test) ← rebalance group "test" train test
    return ⟨train, validation, test⟩
  else do
    let (validation, test) ← rebalance group "test" validation test
    return ⟨train, validation, test⟩

theorem partitionAt_eq_bind (group : α → String) (items : List α) (cuts : Cuts) :
    partitionAt group items cuts =
      rebalance group "validation" (items.take cuts.validation)
          ((items.take cuts.test).drop cuts.validation) >>= fun parts =>
        rebalanceTest group parts.1 parts.2 (items.drop cuts.test) := rfl

section

variable (group : α → String) {items : List α} {test : Nat} (htest : test ≤ items.length)
include htest

/-- The run behind the test cut goes to the validation part if that has items. -/
theorem rebalanceTest_of_lt (train : List α) {first : Nat} (hfirst : first < test) :
    rebalanceTest group train ((items.take test).drop first) (items.drop test) =
      let more := (runBehind group items test items.length).length
      if 0 < more ∧ more = items.length - test then .error (.partitionTooSmall "test")
      else .ok ⟨train, (items.take (test + more)).drop first, items.drop (test + more)⟩ := by
  have hpass := rebalance_parts group "test" (Or.inl hfirst) htest
    (Nat.le_refl items.length)
  have hitems : ((items.take test).drop first).isEmpty = false := by
    rw [List.isEmpty_eq_false_iff, ← List.length_pos_iff, List.length_drop, List.length_take]
    omega
  simp only [List.take_length] at hpass
  simp only [rebalanceTest, hitems, Bool.false_eq_true, if_false, hpass]
  split <;> rfl

/-- The run behind the test cut goes to the train part if the validation part is
empty. -/
theorem rebalanceTest_nil :
    rebalanceTest group (items.take test) [] (items.drop test) =
      let more := (runBehind group items test items.length).length
      if 0 < more ∧ more = items.length - test then .error (.partitionTooSmall "test")
      else .ok ⟨items.take (test + more), [], items.drop (test + more)⟩ := by
  have hpass := rebalance_parts group "test" (Or.inr rfl) htest (Nat.le_refl items.length)
  simp only [List.take_length, List.drop_zero] at hpass
  simp only [rebalanceTest, List.isEmpty_nil, if_true, hpass]
  split <;> rfl

/-- Both passes, by the runs behind the cuts. -/
theorem partitionAt_eq {validation : Nat} (hcuts : validation ≤ test) :
    partitionAt group items ⟨test, validation⟩ =
      let moved := (runBehind group items validation test).length
      let more := (runBehind group items test items.length).length
      if 0 < moved ∧ moved = test - validation then
        .error (.partitionTooSmall "validation")
      else if 0 < more ∧ more = items.length - test then .error (.partitionTooSmall "test")
      else .ok
        (if validation < test then
          ⟨items.take (validation + moved),
            (items.take (test + more)).drop (validation + moved), items.drop (test + more)⟩
        else ⟨items.take (test + more), [], items.drop (test + more)⟩) := by
  have hmoved := length_runBehind_le group items validation test
  have hpass := rebalance_parts group "validation" (Or.inr rfl) hcuts htest
  simp only [List.drop_zero] at hpass
  simp only [partitionAt_eq_bind, hpass]
  by_cases hdrained : 0 < (runBehind group items validation test).length ∧
      (runBehind group items validation test).length = test - validation
  · rw [if_pos hdrained, if_pos hdrained]
    rfl
  · rw [if_neg hdrained, if_neg hdrained]
    change rebalanceTest group (items.take _) ((items.take test).drop _) (items.drop test) = _
    by_cases hkept : validation < test
    · rw [rebalanceTest_of_lt group htest _ (by omega)]
      simp only [if_pos hkept]
    · have hsame : validation = test := by omega
      subst hsame
      have hnone : (runBehind group items validation validation).length = 0 := by omega
      have hempty : (items.take validation).drop validation = [] :=
        List.drop_eq_nil_of_le (List.length_take_le _ _)
      rw [hnone, Nat.add_zero, hempty, rebalanceTest_nil group htest]
      simp only [if_neg hkept]

end

/-- Rebalancing moves the runs behind the two cuts and nothing else: the one behind the
validation cut to the train part, and the one behind the test cut to the validation part
or, if the cuts are the same, to the train part.  Each run is the longest one.  It is a
fault if the first is all of a validation part that has items or, failing that, if the
second is all of a test part that has items. -/
theorem splitByPosition_moves_runs (group : α → String) (items : List α)
    (train validation : Float) :
    let cuts := cutPoints items.length train validation
    let split := splitByPosition group items train validation
    ∃ moved more : Nat,
      (∀ count, IsLongestRun group items cuts.validation cuts.test count ↔
        count = moved) ∧
      (∀ count, IsLongestRun group items cuts.test items.length count ↔ count = more) ∧
      (split = .error (.partitionTooSmall "validation") ↔
        0 < moved ∧ moved = cuts.test - cuts.validation) ∧
      (split = .error (.partitionTooSmall "test") ↔
        ¬ (0 < moved ∧ moved = cuts.test - cuts.validation) ∧
          0 < more ∧ more = items.length - cuts.test) ∧
      ∀ parts, split = .ok parts ↔
        ¬ (0 < moved ∧ moved = cuts.test - cuts.validation) ∧
          ¬ (0 < more ∧ more = items.length - cuts.test) ∧
          parts =
            if cuts.validation < cuts.test then
              ⟨items.take (cuts.validation + moved),
                (items.take (cuts.test + more)).drop (cuts.validation + moved),
                items.drop (cuts.test + more)⟩
            else ⟨items.take (cuts.test + more), [], items.drop (cuts.test + more)⟩ := by
  intro cuts split
  have hcuts : cuts.validation ≤ cuts.test :=
    validation_cutPoints_le items.length train validation
  have htest : cuts.test ≤ items.length := test_cutPoints_le items.length train validation
  have hsplit : split = partitionAt group items cuts := rfl
  clear_value split cuts
  refine ⟨_, _, isLongestRun_iff group items hcuts, isLongestRun_iff group items htest, ?_⟩
  rw [hsplit, partitionAt_eq group htest hcuts]
  generalize (runBehind group items cuts.validation cuts.test).length = moved
  generalize (runBehind group items cuts.test items.length).length = more
  dsimp only
  by_cases hfirst : 0 < moved ∧ moved = cuts.test - cuts.validation
  · rw [if_pos hfirst]
    exact ⟨iff_of_true rfl hfirst, iff_of_false (by simp) fun h => h.1 hfirst,
      fun parts => iff_of_false nofun fun h => h.1 hfirst⟩
  · rw [if_neg hfirst]
    by_cases hsecond : 0 < more ∧ more = items.length - cuts.test
    · rw [if_pos hsecond]
      exact ⟨iff_of_false (by simp) hfirst, iff_of_true rfl ⟨hfirst, hsecond⟩,
        fun parts => iff_of_false nofun fun h => h.2.1 hsecond⟩
    · rw [if_neg hsecond]
      refine ⟨iff_of_false nofun hfirst, iff_of_false nofun fun h => hsecond h.2,
        fun parts => ⟨fun h => ⟨hfirst, hsecond, (Except.ok.inj h).symm⟩, fun h => ?_⟩⟩
      rw [h.2.2]

example : splitByPosition groupKey
      ["A1.java", "A2.java", "B1.java", "B2.java", "C.java"] 0.7 0.75 =
    .ok ⟨["A1.java", "A2.java"], ["B1.java", "B2.java"], ["C.java"]⟩ := by
  decide +kernel

end LogCorpus
