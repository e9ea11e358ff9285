/-
Partitions of images.

A partition asks for the groups of items and for nothing else.  So images are cut and
shuffled like the items that they are made from, and lists of items with the same
groups are partitioned alike.
-/
import LogCorpus.Proofs.Partition.Rebalancing

namespace LogCorpus

/-- The parts of the images. -/
@[simps]
def Partition.map (image : α → β) (parts : Partition α) : Partition β :=
  ⟨parts.train.map image, parts.validation.map image, parts.test.map image⟩

/-! ### Shuffling -/

theorem swapIfInBounds_map (image : α → β) (items : Array α) (place other : Nat) :
    (items.map image).swapIfInBounds place other =
      (items.swapIfInBounds place other).map image := by
  grind

/-- Exchanges do not look at the items, so each of them can come before the images are
taken. -/
theorem shuffleDown_map (image : α → β) (source : WordSource σ) (place : Nat)
    (items : Array α) (state : σ) :
    shuffleDown source place (items.map image) state =
      let (shuffled, rest) := shuffleDown source place items state
      (shuffled.map image, rest) := by
  induction place generalizing items state with
  | zero => rfl
  | succ place ih => simp only [shuffleDown, swapIfInBounds_map, ih]

theorem shuffle_map (image : α → β) (source : WordSource σ) (items : List α) (state : σ) :
    shuffle source (items.map image) state =
      let (shuffled, rest) := shuffle source items state
      (shuffled.map image, rest) := by
  simp only [shuffle, List.length_map, ← List.map_toArray, shuffleDown_map, Array.toList_map]

theorem Partition.shuffle_map (image : α → β) (source : WordSource σ) (parts : Partition α)
    (state : σ) :
    (parts.map image).shuffle source state =
      let (shuffled, rest) := parts.shuffle source state
      (shuffled.map image, rest) := by
  simp only [shuffle, map, LogCorpus.shuffle_map]

/-! ### Cutting -/

section

variable (image : α → β) (group : β → String)

theorem rebalance_map (name : String) (earlier later : List α) :
    rebalance group name (earlier.map image) (later.map image) =
      (rebalance (group ∘ image) name earlier later).map fun parts =>
        (parts.1.map image, parts.2.map image) := by
  rw [rebalance, rebalance, List.getLast?_map]
  cases earlier.getLast? with
  | none => rfl
  | some last =>
      have hmoved : ((later.map image).takeWhile fun item => group item = group (image last)) =
          (later.takeWhile fun item =>
            (group ∘ image) item = (group ∘ image) last).map image :=
        List.takeWhile_map
      simp only [Option.map_some, hmoved]
      generalize (later.takeWhile fun item =>
        (group ∘ image) item = (group ∘ image) last) = moved
      rw [List.length_map, List.length_map, ← List.map_drop, ← List.map_append]
      by_cases hnone : moved.length = 0
      · rw [if_pos hnone, if_pos hnone]
        rfl
      · rw [if_neg hnone, if_neg hnone]
        split <;> rfl

theorem rebalanceTest_map (train validation test : List α) :
    rebalanceTest group (train.map image) (validation.map image) (test.map image) =
      (rebalanceTest (group ∘ image) train validation test).map (Partition.map image) := by
  rw [rebalanceTest, rebalanceTest, List.isEmpty_map, rebalance_map, rebalance_map]
  split
  · cases rebalance (group ∘ image) "test" train test <;> rfl
  · cases rebalance (group ∘ image) "test" validation test <;> rfl

theorem partitionAt_map (items : List α) (cuts : Cuts) :
    partitionAt group (items.map image) cuts =
      (partitionAt (group ∘ image) items cuts).map (Partition.map image) := by
  rw [partitionAt_eq_bind, partitionAt_eq_bind, ← List.map_take, ← List.map_take,
    ← List.map_drop, ← List.map_drop, rebalance_map]
  cases rebalance (group ∘ image) "validation" (items.take cuts.validation)
      ((items.take cuts.test).drop cuts.validation) with
  | error fault => rfl
  | ok parts => exact rebalanceTest_map image group _ _ _

/-- Images are partitioned like the items that they are made from. -/
theorem partition_map (source : WordSource σ) (items : List α) (train validation : Float)
    (state : σ) :
    partition group source (items.map image) train validation state =
      (partition (group ∘ image) source items train validation state).map
        fun (parts, rest) => (parts.map image, rest) := by
  rw [partition, partition, splitByPosition, splitByPosition, List.length_map,
    partitionAt_map]
  cases partitionAt (group ∘ image) items (cutPoints items.length train validation) with
  | error fault => rfl
  | ok parts => exact congrArg Except.ok (parts.shuffle_map image source state)

end

/-- Groups that agree on the items of a list partition it alike. -/
theorem partition_congr {group other : α → String} {items : List α}
    (hsame : ∀ item ∈ items, group item = other item) (source : WordSource σ)
    (train validation : Float) (state : σ) :
    partition group source items train validation state =
      partition other source items train validation state := by
  have hattached : group ∘ Subtype.val = (other ∘ Subtype.val : {item // item ∈ items} → _) :=
    funext fun item => hsame item.1 item.2
  rw [← items.attach_map_subtype_val, partition_map, partition_map, hattached]

end LogCorpus
