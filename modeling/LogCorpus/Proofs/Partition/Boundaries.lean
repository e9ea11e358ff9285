/-
What lies on both sides of a border.

After rebalancing, the last item of a part and the first one of the next part that is
not empty belong to different groups.  In a list whose groups lie together this is
enough: an item of a group in an earlier part and one in a later part would have the
items at the border between them.
-/
import LogCorpus.Proofs.Partition.Conservation
import Mathlib.Data.List.Sublists

namespace LogCorpus

/-- Items of one key lie together: none of another key lies between two of them. -/
def Contiguous (key : α → κ) (items : List α) : Prop :=
  ∀ first middle last, [first, middle, last].Sublist items →
    key first = key last → key middle = key first

instance [DecidableEq κ] (key : α → κ) (items : List α) :
    Decidable (Contiguous key items) :=
  decidable_of_iff
    (∀ triple ∈ items.sublistsLen 3, triple[0]?.map key = triple[2]?.map key →
      triple[1]?.map key = triple[0]?.map key) <| by
    constructor
    · intro hall first middle last htriple hkey
      have hmiddle := hall _ (List.mem_sublistsLen.mpr ⟨htriple, rfl⟩)
        (congrArg some hkey)
      exact Option.some.inj hmiddle
    · intro hcontiguous triple htriple hkey
      obtain ⟨hsublist, hlength⟩ := List.mem_sublistsLen.mp htriple
      obtain ⟨first, middle, last, rfl⟩ := List.length_eq_three.mp hlength
      exact congrArg some
        (hcontiguous first middle last hsublist (Option.some.inj hkey))

/-- The items of one key lie together: none of another key lies between two of
them. -/
def Together (key : α → κ) (value : κ) (items : List α) : Prop :=
  ∀ first middle last, [first, middle, last].Sublist items →
    key first = value → key last = value → key middle = value

theorem Contiguous.together {key : α → κ} {items : List α}
    (hitems : Contiguous key items) (value : κ) : Together key value items :=
  fun first middle last htriple hfirst hlast =>
    (hitems first middle last htriple (hfirst.trans hlast.symm)).trans hfirst

theorem Together.of_sublist {key : α → κ} {value : κ} {items kept : List α}
    (hitems : Together key value items) (hkept : kept.Sublist items) :
    Together key value kept :=
  fun first middle last htriple => hitems first middle last (htriple.trans hkept)

/-- Three images in a row come from three items in a row. -/
theorem exists_triple_of_sublist_map {image : β → α} {items : List β} {a b c : α}
    (htriple : [a, b, c].Sublist (items.map image)) :
    ∃ first middle last, [first, middle, last].Sublist items ∧
      image first = a ∧ image middle = b ∧ image last = c := by
  obtain ⟨triple, hsublist, heq⟩ := List.sublist_map_iff.mp htriple
  obtain ⟨first, middle, last, rfl⟩ :=
    List.length_eq_three.mp (by simpa using (congrArg List.length heq).symm)
  simp only [List.map_cons, List.map_nil, List.cons.injEq, and_true] at heq
  exact ⟨first, middle, last, hsublist, heq.1.symm, heq.2.1.symm, heq.2.2.symm⟩

/-- Whether the items of a key lie together can be seen from the keys. -/
theorem Together.of_map_key_eq {key : α → κ} {other : β → κ} {value : κ} {items : List α}
    {others : List β} (hitems : Together key value items)
    (hkeys : others.map other = items.map key) : Together other value others := by
  intro a b c htriple hfirst hlast
  have himages := htriple.map other
  rw [hkeys] at himages
  obtain ⟨first, middle, last, hsublist, hfirstKey, hmiddleKey, hlastKey⟩ :=
    exists_triple_of_sublist_map himages
  rw [← hmiddleKey]
  exact hitems first middle last hsublist (hfirstKey.trans hfirst) (hlastKey.trans hlast)

theorem Together.map {image : β → α} {key : α → κ} {value : κ} {items : List β}
    (hitems : Together (key ∘ image) value items) :
    Together key value (items.map image) := by
  intro a b c htriple
  obtain ⟨first, middle, last, hsublist, rfl, rfl, rfl⟩ :=
    exists_triple_of_sublist_map htriple
  exact hitems first middle last hsublist

/-- Where the items of a key lie together and those at a border have different keys,
the key does not lie on both sides of the border. -/
theorem Together.key_ne_of_apart {key : α → κ} {value : κ} {earlier later : List α}
    (hitems : Together key value (earlier ++ later)) (hapart : Apart key earlier later)
    {first second : α} (hfirst : first ∈ earlier) (hsecond : second ∈ later)
    (hkey : key first = value) : key second ≠ value := by
  intro hsecondKey
  obtain ⟨last, hlast⟩ : ∃ last, earlier.getLast? = some last :=
    ⟨_, List.getLast?_eq_some_getLast (List.ne_nil_of_mem hfirst)⟩
  obtain ⟨next, hnext⟩ : ∃ next, later.head? = some next :=
    ⟨_, List.head?_eq_some_head (List.ne_nil_of_mem hsecond)⟩
  apply hapart last hlast next hnext
  obtain ⟨front, rfl⟩ := List.getLast?_eq_some_iff.mp hlast
  obtain ⟨back, rfl⟩ := List.head?_eq_some_iff.mp hnext
  -- both items at the border lie between the two, or are one of them
  have hlastKey : key last = value := by
    rcases List.mem_append.mp hfirst with hfront | hsame
    · apply hitems first last second _ hkey hsecondKey
      exact ((List.singleton_sublist.mpr hfront).append
        (List.Sublist.refl [last])).append (List.singleton_sublist.mpr hsecond)
    · rw [← List.mem_singleton.mp hsame, hkey]
  have hnextKey : key next = value := by
    rcases List.mem_cons.mp hsecond with hsame | hback
    · rw [← hsame, hsecondKey]
    · apply hitems first next second _ hkey hsecondKey
      exact (List.singleton_sublist.mpr hfirst).append
        ((List.singleton_sublist.mpr hback).cons_cons next)
  rw [hlastKey, hnextKey]

namespace Partition

/-- The items at the borders between parts have different keys.  An empty validation
part is no part between the other two. -/
structure Separated (key : α → κ) (parts : Partition α) : Prop where
  train_validation : Apart key parts.train parts.validation
  validation_test : Apart key parts.validation parts.test
  train_test : parts.validation = [] → Apart key parts.train parts.test

section

variable {key : α → κ} {parts : Partition α} (hparts : parts.Separated key)
include hparts

/-- Keys that tell more items apart are different too. -/
theorem Separated.of_key_eq {finer : α → ι}
    (hfiner : ∀ first second, finer first = finer second → key first = key second) :
    parts.Separated finer := by
  have hapart {earlier later : List α} (h : Apart key earlier later) :
      Apart finer earlier later :=
    fun last hlast first hfirst heq => h last hlast first hfirst (hfiner _ _ heq)
  exact ⟨hapart hparts.train_validation, hapart hparts.validation_test,
    fun hempty => hapart (hparts.train_test hempty)⟩

theorem Separated.apart_train :
    Apart key parts.train (parts.validation ++ parts.test) := by
  cases hvalidation : parts.validation with
  | nil => exact hparts.train_test hvalidation
  | cons first rest =>
      have hapart := hparts.train_validation
      rw [hvalidation] at hapart
      exact hapart

/-- If the items of a key lay together in the list, they are in one part. -/
theorem Separated.key_ne {value : κ}
    (hitems : Together key value (parts.train ++ (parts.validation ++ parts.test)))
    {part other : Part} (hne : part ≠ other) {first second : α}
    (hfirst : first ∈ parts.items part) (hsecond : second ∈ parts.items other) :
    key first = value → key second ≠ value := by
  have hlater := hitems.of_sublist (List.sublist_append_right parts.train _)
  exact rel_of_mem_items (fun first second => key first = value → key second ≠ value)
    (fun _ _ hrel hsecond hfirst => hrel hfirst hsecond)
    (fun _ hfirst _ hsecond => hitems.key_ne_of_apart hparts.apart_train hfirst hsecond)
    (fun _ hfirst _ hsecond => hlater.key_ne_of_apart hparts.validation_test hfirst hsecond)
    hne hfirst hsecond

end

end Partition

/-- Two passes separate the parts: the second one leaves the border that the first
one has made as it is. -/
theorem separated_of_partitionAt_eq_ok {group : α → String} {items : List α}
    {cuts : Cuts} {parts : Partition α}
    (hpartition : partitionAt group items cuts = .ok parts) :
    parts.Separated group := by
  have hnil {earlier later : List α} (h : earlier = [] ∨ later = []) :
      Apart group earlier later := by
    rcases h with rfl | rfl
    · exact fun last hlast => nomatch hlast
    · exact fun last _ first hfirst => nomatch hfirst
  obtain ⟨train, validation, hfirst, hrest⟩ :=
    exists_passes_of_partitionAt_eq_ok hpartition
  obtain ⟨_, _, _, hborder⟩ := exists_moved_of_rebalance_eq_ok hfirst
  rcases hrest with ⟨_, hempty, hsecond⟩ | ⟨hkept, hsame, hsecond⟩
  · obtain ⟨_, _, _, hlater⟩ := exists_moved_of_rebalance_eq_ok hsecond
    exact ⟨hnil (.inr hempty), hnil (.inl hempty), fun _ => hlater⟩
  · obtain ⟨moved, hvalidation, _, hlater⟩ := exists_moved_of_rebalance_eq_ok hsecond
    refine ⟨?_, hlater, fun hempty => ?_⟩
    · rw [hsame, hvalidation]
      intro last hlast first hfirst
      rw [List.head?_append_of_ne_nil _ hkept] at hfirst
      exact hborder last hlast first hfirst
    · rw [hvalidation] at hempty
      exact absurd (List.append_eq_nil_iff.mp hempty).1 hkept

/-- The items at the borders between parts are of different groups, and in a list
whose groups lie together no group has items in two parts. -/
theorem splitByPosition_separates {group : α → String} {items : List α}
    {train validation : Float} {parts : Partition α}
    (hsplit : splitByPosition group items train validation = .ok parts) :
    parts.Separated group ∧
      (Contiguous group items → ∀ part other, part ≠ other →
        ∀ first ∈ parts.items part, ∀ second ∈ parts.items other,
          group first ≠ group second) := by
  have hparts := separated_of_partitionAt_eq_ok hsplit
  refine ⟨hparts, fun hitems part other hne first hfirst second hsecond => ?_⟩
  rw [← append_of_splitByPosition_eq_ok hsplit] at hitems
  intro hgroup
  exact hparts.key_ne (hitems.together _) hne hfirst hsecond rfl hgroup.symm

/-- A group that reaches over the first cut and one that reaches over the second. -/
theorem splitByPosition_separates_of_twelve :
    let paths : List String := ["A.java", "B.java", "C.java", "D.java", "E.java",
      "F1.java", "F2.java", "G1.java", "G2.java", "G3.java", "H.java", "I.java"]
    let parts : Partition String := ⟨["A.java", "B.java", "C.java", "D.java",
      "E.java", "F1.java", "F2.java"], ["G1.java", "G2.java", "G3.java"],
      ["H.java", "I.java"]⟩
    cutPoints 12 0.75 0.5 = ⟨9, 6⟩ ∧
      splitByPosition groupKey paths 0.75 0.5 = .ok parts ∧
      Contiguous groupKey paths ∧ parts.Separated groupKey ∧
      ∀ part other, part ≠ other → ∀ first ∈ parts.items part,
        ∀ second ∈ parts.items other, groupKey first ≠ groupKey second := by
  intro paths parts
  have hsplit : splitByPosition groupKey paths 0.75 0.5 = .ok parts := by
    decide +kernel
  have hpaths : Contiguous groupKey paths := by
    decide +kernel
  obtain ⟨hparts, hgroups⟩ := splitByPosition_separates hsplit
  exact ⟨by decide +kernel, hsplit, hpaths, hparts, hgroups hpaths⟩

end LogCorpus
