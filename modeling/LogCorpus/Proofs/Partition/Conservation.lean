/-
Partitions keep their items.

Every place at which a list is cut lies in that list, whatever the fractions are.  The
parts put together are the list in its order, and shuffling changes no more than the
order within each part.
-/
import LogCorpus.Proofs.Partition

namespace LogCorpus

/-- Cut a list at a place.  There is no cut behind its end. -/
def cutAt? (items : List α) (place : Nat) : Option (List α × List α) :=
  if place ≤ items.length then some (items.take place, items.drop place) else none

theorem cutAt?_eq_some {items : List α} {place : Nat} (hplace : place ≤ items.length) :
    cutAt? items place = some (items.take place, items.drop place) :=
  if_pos hplace

/-- `rebalance`, which has no outcome where it would cut behind an end. -/
def rebalanceInRange (group : α → String) (laterName : String)
    (earlier later : List α) : ExceptT Fault Option (List α × List α) :=
  match earlier.getLast? with
  | none => return (earlier, later)
  | some last => do
      let count := (later.takeWhile fun item => group item = group last).length
      if count = 0 then return (earlier, later)
      if count = later.length then throw (.partitionTooSmall laterName)
      let (moved, kept) ← (cutAt? later count : Option (List α × List α))
      return (earlier ++ moved, kept)

/-- `splitByPosition`, which has no outcome where it would cut behind an end. -/
def splitInRange (group : α → String) (items : List α) (train validation : Float) :
    ExceptT Fault Option (Partition α) := do
  let cuts := cutPoints items.length train validation
  let (front, test) ← (cutAt? items cuts.test : Option (List α × List α))
  let (train, validation) ← (cutAt? front cuts.validation : Option (List α × List α))
  let (train, validation) ← rebalanceInRange group "validation" train validation
  if validation.isEmpty then
    let (train, test) ← rebalanceInRange group "test" train test
    return ⟨train, validation, test⟩
  else
    let (validation, test) ← rebalanceInRange group "test" validation test
    return ⟨train, validation, test⟩

theorem run_rebalanceInRange (group : α → String) (name : String)
    (earlier later : List α) :
    (rebalanceInRange group name earlier later).run =
      some (rebalance group name earlier later) := by
  rw [rebalanceInRange, rebalance]
  cases earlier.getLast? with
  | none => rfl
  | some last =>
      simp only
      have hprefix := List.takeWhile_prefix (l := later)
        fun item => decide (group item = group last)
      by_cases hnone : (later.takeWhile fun item => group item = group last).length = 0
      · rw [if_pos hnone, if_pos hnone]
        rfl
      · rw [if_neg hnone, if_neg hnone]
        by_cases hdrained :
            (later.takeWhile fun item => group item = group last).length = later.length
        · rw [if_pos hdrained, if_pos hdrained]
          rfl
        · rw [if_neg hdrained, if_neg hdrained, cutAt?_eq_some hprefix.length_le,
            ← List.prefix_iff_eq_take.mp hprefix]
          rfl

theorem validation_cutPoints_le (count : Nat) (train validation : Float) :
    (cutPoints count train validation).validation ≤
      (cutPoints count train validation).test :=
  Nat.min_le_right _ _

theorem test_cutPoints_le (count : Nat) (train validation : Float) :
    (cutPoints count train validation).test ≤ count :=
  Nat.min_le_right _ _

/-- Steps that stay in range make a sequence that does. -/
theorem run_bind_eq_some {ε α β : Type} {step : ExceptT ε Option α}
    {next : α → ExceptT ε Option β} {outcome : Except ε α} {more : α → Except ε β}
    (hstep : step.run = some outcome) (hnext : ∀ value, (next value).run = some (more value)) :
    (step >>= next).run = some (outcome >>= more) := by
  rw [ExceptT.run_bind, hstep]
  cases outcome with
  | error fault => rfl
  | ok value => exact hnext value

/-- No cut lies behind the end of its list. -/
theorem run_splitInRange (group : α → String) (items : List α)
    (train validation : Float) :
    (splitInRange group items train validation).run =
      some (splitByPosition group items train validation) := by
  have htest := test_cutPoints_le items.length train validation
  have hvalidation := validation_cutPoints_le items.length train validation
  have hfront : (cutPoints items.length train validation).validation ≤
      (items.take (cutPoints items.length train validation).test).length := by
    rwa [List.length_take, Nat.min_eq_left htest]
  have hcut : (items.take (cutPoints items.length train validation).test).take
      (cutPoints items.length train validation).validation =
        items.take (cutPoints items.length train validation).validation := by
    rw [List.take_take, Nat.min_eq_left hvalidation]
  rw [splitInRange, splitByPosition, partitionAt]
  simp only [cutAt?_eq_some htest]
  change (liftM (cutAt? _ _) >>= _ : ExceptT Fault Option _).run = _
  rw [cutAt?_eq_some hfront, hcut]
  apply run_bind_eq_some (run_rebalanceInRange group _ _ _)
  rintro ⟨front, middle⟩
  simp only
  cases middle.isEmpty with
  | true => exact run_bind_eq_some (run_rebalanceInRange group _ _ _) fun _ => rfl
  | false => exact run_bind_eq_some (run_rebalanceInRange group _ _ _) fun _ => rfl

/-- What holds between the train part and the later ones, and between these two,
holds between any two parts. -/
theorem Partition.rel_of_mem_items {parts : Partition α} (rel : α → α → Prop)
    (hsymm : ∀ first second, rel first second → rel second first)
    (hfront : ∀ first ∈ parts.train, ∀ second ∈ parts.validation ++ parts.test,
      rel first second)
    (hback : ∀ first ∈ parts.validation, ∀ second ∈ parts.test, rel first second)
    {part other : Part} (hne : part ≠ other) {first second : α}
    (hfirst : first ∈ parts.items part) (hsecond : second ∈ parts.items other) :
    rel first second := by
  cases part with
  | train =>
      cases other with
      | train => exact absurd rfl hne
      | validation => exact hfront _ hfirst _ (List.mem_append_left _ hsecond)
      | test => exact hfront _ hfirst _ (List.mem_append_right _ hsecond)
  | validation =>
      cases other with
      | train => exact hsymm _ _ (hfront _ hsecond _ (List.mem_append_left _ hfirst))
      | validation => exact absurd rfl hne
      | test => exact hback _ hfirst _ hsecond
  | test =>
      cases other with
      | train => exact hsymm _ _ (hfront _ hsecond _ (List.mem_append_right _ hfirst))
      | validation => exact hsymm _ _ (hback _ hsecond _ hfirst)
      | test => exact absurd rfl hne

/-- Parts whose items are those of a list have each item of the list. -/
theorem Partition.exists_mem_items {items : List α} {parts : Partition α}
    (hall : (parts.train ++ (parts.validation ++ parts.test)).Perm items) {item : α}
    (hitem : item ∈ items) : ∃ part, item ∈ parts.items part := by
  rw [← hall.mem_iff, List.mem_append, List.mem_append] at hitem
  rcases hitem with htrain | hvalidation | htest
  · exact ⟨.train, htrain⟩
  · exact ⟨.validation, hvalidation⟩
  · exact ⟨.test, htest⟩

/-- Where no item is repeated, none lies in two parts and none twice in one. -/
theorem Partition.unique_mem_items {items : List α} {parts : Partition α}
    (hall : (parts.train ++ (parts.validation ++ parts.test)).Perm items)
    (hitems : items.Nodup) :
    (∀ part, (parts.items part).Nodup) ∧
      ∀ item part other, item ∈ parts.items part → item ∈ parts.items other →
        part = other := by
  rw [← hall.nodup_iff, List.nodup_append, List.nodup_append] at hitems
  obtain ⟨htrain, ⟨hvalidation, htest, hback⟩, hfront⟩ := hitems
  constructor
  · intro part
    cases part with
    | train => exact htrain
    | validation => exact hvalidation
    | test => exact htest
  · intro item part other hpart hother
    by_contra hne
    exact rel_of_mem_items (· ≠ ·) (fun _ _ => Ne.symm) hfront hback hne hpart hother
      rfl

/-- The parts of a shuffled partition have the items of the parts, together. -/
theorem Partition.append_shuffle_perm (source : WordSource σ) (parts : Partition α)
    (state : σ) :
    let shuffled := (parts.shuffle source state).1
    (shuffled.train ++ (shuffled.validation ++ shuffled.test)).Perm
      (parts.train ++ (parts.validation ++ parts.test)) :=
  (items_shuffle_perm source parts state .train).append
    ((items_shuffle_perm source parts state .validation).append
      (items_shuffle_perm source parts state .test))

/-- The parts of a list have its items, together. -/
theorem append_perm_of_partition_eq_ok {group : α → String} {source : WordSource σ}
    {items : List α} {train validation : Float} {state rest : σ} {parts : Partition α}
    (hpartition : partition group source items train validation state = .ok (parts, rest)) :
    (parts.train ++ (parts.validation ++ parts.test)).Perm items := by
  obtain ⟨split, hsplit, hshuffled⟩ := exists_of_map_eq_ok hpartition
  have hparts : (split.shuffle source state).1 = parts := congrArg Prod.fst hshuffled
  rw [← hparts, ← append_of_splitByPosition_eq_ok hsplit]
  exact split.append_shuffle_perm source state

/-- Whatever the fractions are, no cut lies behind the end of its list, and the
parts put together are the list in its order.  Whatever the words of the source are,
a shuffled part has the items of that part, so every item is in one part, once.  The
only fault is that of the cut. -/
theorem partition_keeps_items (group : α → String) (source : WordSource σ)
    (items : List α) (train validation : Float) (state : σ) :
    (splitInRange group items train validation).run =
        some (splitByPosition group items train validation) ∧
      ((∃ fault, splitByPosition group items train validation = .error fault ∧
          partition group source items train validation state = .error fault) ∨
        ∃ (parts shuffled : Partition α) (rest : σ),
          splitByPosition group items train validation = .ok parts ∧
            partition group source items train validation state =
              .ok (shuffled, rest) ∧
            parts.train ++ parts.validation ++ parts.test = items ∧
            (∀ part, (shuffled.items part).Perm (parts.items part)) ∧
            (shuffled.train ++ shuffled.validation ++ shuffled.test).Perm items ∧
            (∀ item ∈ items, ∃ part, item ∈ shuffled.items part) ∧
            (items.Nodup → (∀ part, (shuffled.items part).Nodup) ∧
              ∀ item part other, item ∈ shuffled.items part →
                item ∈ shuffled.items other → part = other)) := by
  refine ⟨run_splitInRange group items train validation, ?_⟩
  cases hsplit : splitByPosition group items train validation with
  | error fault =>
      left
      exact ⟨fault, rfl, by rw [partition, hsplit]; rfl⟩
  | ok parts =>
      right
      have happend := append_of_splitByPosition_eq_ok hsplit
      have hall := Partition.append_shuffle_perm source parts state
      rw [happend] at hall
      refine ⟨parts, (parts.shuffle source state).1, (parts.shuffle source state).2, rfl,
        by rw [partition, hsplit]; rfl, by rw [List.append_assoc, happend],
        Partition.items_shuffle_perm source parts state,
        by rw [List.append_assoc]; exact hall,
        fun item => Partition.exists_mem_items hall,
        Partition.unique_mem_items hall⟩

example : splitByPosition groupKey ["A.java", "B1.java", "B2.java", "C.java"]
      (0.0 / 0.0) (1.0 / 0.0) =
    .ok ⟨[], [], ["A.java", "B1.java", "B2.java", "C.java"]⟩ := by
  decide +kernel

example : splitByPosition groupKey ["A.java", "B1.java", "B2.java", "C.java"] 0.5 0.5 =
    .ok ⟨["A.java", "B1.java", "B2.java"], [], ["C.java"]⟩ := by
  decide +kernel

end LogCorpus
