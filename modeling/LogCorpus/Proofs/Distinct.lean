/-
The first element of each key.

What has been seen is a set that grows along the list.  It can be left out: behind its
first element a list keeps what its rest keeps, less the elements of that key.  All that
is said of the kept elements comes from this one equation, by induction on the list.  So
there are as many of them as a set that collects the keys has members.
-/
import LogCorpus.Distinct
import Mathlib.Data.Finset.Card
import Mathlib.Data.List.Basic

namespace LogCorpus

variable {α β κ : Type} [Ord κ]

section

variable [Std.TransOrd κ] [Std.LawfulEqOrd κ] (key : α → κ)

/-- Keys that have been seen before drop elements and do nothing else. -/
theorem freshOfEach_eq_filter (seen : Std.TreeSet κ) (items : List α) :
    freshOfEach key seen items =
      (firstOfEach key items).filter fun item => !seen.contains (key item) := by
  induction items generalizing seen with
  | nil => rfl
  | cons item rest ih =>
      rw [firstOfEach, freshOfEach, freshOfEach, Std.TreeSet.contains_emptyc,
        if_neg Bool.false_ne_true, ih seen, ih (seen.insert (key item)),
        ih (Std.TreeSet.insert ∅ (key item))]
      cases hseen : seen.contains (key item) with
      | true =>
          rw [if_pos rfl, List.filter_cons_of_neg (by rw [hseen]; exact Bool.false_ne_true),
            List.filter_filter]
          apply List.filter_congr
          intro other _
          cases hother : seen.contains (key other) with
          | true => rfl
          | false =>
              have hne : key item ≠ key other := by
                intro heq
                rw [heq, hother] at hseen
                exact Bool.false_ne_true hseen
              simp [Std.TreeSet.contains_insert, hne]
      | false =>
          rw [if_neg Bool.false_ne_true, List.filter_cons_of_pos (by rw [hseen]; rfl),
            List.filter_filter]
          congr 1
          apply List.filter_congr
          intro other _
          rw [Std.TreeSet.contains_insert, Std.TreeSet.contains_insert,
            Std.TreeSet.contains_emptyc, Bool.or_false, Bool.not_or, Bool.and_comm]

variable [DecidableEq κ]

/-- Behind its first element a list keeps what its rest keeps of other keys. -/
theorem firstOfEach_cons (item : α) (rest : List α) :
    firstOfEach key (item :: rest) =
      item :: (firstOfEach key rest).filter fun other => key other ≠ key item := by
  rw [firstOfEach, freshOfEach, Std.TreeSet.contains_emptyc, if_neg Bool.false_ne_true,
    freshOfEach_eq_filter]
  congr 1
  apply List.filter_congr
  intro other _
  rw [Std.TreeSet.contains_insert, Std.TreeSet.contains_emptyc, Bool.or_false,
    Bool.eq_iff_iff, decide_eq_true_iff, ne_comm]
  simp

theorem firstOfEach_sublist (items : List α) : (firstOfEach key items).Sublist items := by
  induction items with
  | nil => exact List.Sublist.refl _
  | cons item rest ih =>
      rw [firstOfEach_cons]
      exact (List.filter_sublist.trans ih).cons_cons item

/-- No key is kept twice. -/
theorem nodup_map_firstOfEach (items : List α) :
    ((firstOfEach key items).map key).Nodup := by
  induction items with
  | nil => exact List.nodup_nil
  | cons item rest ih =>
      rw [firstOfEach_cons, List.map_cons, List.nodup_cons]
      constructor
      · intro hmem
        obtain ⟨other, hother, heq⟩ := List.mem_map.mp hmem
        exact of_decide_eq_true (List.mem_filter.mp hother).2 heq
      · exact ih.sublist (List.filter_sublist.map key)

theorem mem_map_firstOfEach (items : List α) (value : κ) :
    value ∈ (firstOfEach key items).map key ↔ value ∈ items.map key := by
  induction items with
  | nil => rfl
  | cons item rest ih =>
      rw [firstOfEach_cons, List.map_cons, List.mem_cons, List.map_cons, List.mem_cons, ← ih]
      by_cases hvalue : value = key item
      · simp [hvalue]
      · have hother (other : α) : key other ≠ key item ∧ key other = value ↔
            key other = value :=
          and_iff_right_of_imp fun hsame => hsame ▸ hvalue
        simp [hvalue, and_assoc, hother]

/-- There are as many elements kept as keys. -/
theorem length_firstOfEach (items : List α) :
    (firstOfEach key items).length = (items.map key).toFinset.card := by
  rw [← List.length_map key, ← List.toFinset_card_of_nodup (nodup_map_firstOfEach key items)]
  congr 1
  ext value
  simp only [List.mem_toFinset, mem_map_firstOfEach]

variable {key} in
/-- Where no key comes twice, everything is kept. -/
theorem firstOfEach_eq_self {items : List α} (hitems : (items.map key).Nodup) :
    firstOfEach key items = items := by
  induction items with
  | nil => rfl
  | cons item rest ih =>
      obtain ⟨hnew, hrest⟩ := List.nodup_cons.mp hitems
      rw [firstOfEach_cons, ih hrest, List.filter_eq_self.mpr]
      intro other hother
      exact decide_eq_true fun heq => hnew (List.mem_map.mpr ⟨other, hother, heq⟩)

/-- Of a key the first element is kept, and it alone. -/
theorem filter_firstOfEach (items : List α) (value : κ) :
    ((firstOfEach key items).filter fun item => key item = value) =
      (items.find? fun item => key item = value).toList := by
  induction items with
  | nil => rfl
  | cons item rest ih =>
      rw [firstOfEach_cons]
      by_cases hitem : key item = value
      · subst hitem
        rw [List.filter_cons_of_pos (by simp), List.find?_cons_of_pos (by simp),
          List.filter_filter, List.filter_eq_nil_iff.mpr (by simp)]
        rfl
      · rw [List.filter_cons_of_neg (by simpa using hitem),
          List.find?_cons_of_neg (by simpa using hitem), List.filter_filter, ← ih]
        apply List.filter_congr
        intro other _
        by_cases hother : key other = value
        · simp [hother, Ne.symm hitem]
        · simp [hother]

/-- An element is kept if no element in front of it has its key. -/
theorem firstOfEach_eq_map_filter (items : List α) :
    firstOfEach key items =
      (items.zipIdx.filter fun entry =>
        key entry.1 ∉ (items.take entry.2).map key).map Prod.fst := by
  induction items with
  | nil => rfl
  | cons item rest ih =>
      rw [firstOfEach_cons, ih, List.zipIdx_cons, Nat.zero_add,
        List.filter_cons_of_pos (by simp), List.map_cons, List.zipIdx_succ,
        List.filter_map, List.filter_map, List.map_map, List.filter_filter]
      congr 1
      apply congrArg₂ List.map rfl
      apply List.filter_congr
      intro entry _
      simp

omit [Std.TransOrd κ] [Std.LawfulEqOrd κ] [DecidableEq κ] in
/-- Elements with the keys of their images are kept with them. -/
theorem firstOfEach_map (image : β → α) (items : List β) :
    firstOfEach key (items.map image) = (firstOfEach (key ∘ image) items).map image := by
  have hfresh (seen : Std.TreeSet κ) : freshOfEach key seen (items.map image) =
      (freshOfEach (key ∘ image) seen items).map image := by
    induction items generalizing seen with
    | nil => rfl
    | cons item rest ih =>
        rw [List.map_cons, freshOfEach, freshOfEach, ih, ih, Function.comp_apply]
        split <;> rfl
  exact hfresh ∅

omit [Std.TransOrd κ] [Std.LawfulEqOrd κ] [DecidableEq κ] in
variable {key} in
/-- Keys that agree on the elements keep the same ones. -/
theorem firstOfEach_congr {other : α → κ} {items : List α}
    (hsame : ∀ item ∈ items, key item = other item) :
    firstOfEach key items = firstOfEach other items := by
  have hattached : key ∘ Subtype.val = (other ∘ Subtype.val : {item // item ∈ items} → κ) :=
    funext fun item => hsame item.1 item.2
  rw [← items.attach_map_subtype_val, firstOfEach_map, firstOfEach_map, hattached]

end

/-! ### Collected keys -/

/-- A set holds the keys of a list. -/
def Collects (keys : List κ) (set : Std.TreeSet κ) : Prop :=
  ∀ key, key ∈ set ↔ key ∈ keys

theorem collects_nil : Collects (κ := κ) [] ∅ := by
  simp [Collects]

namespace Collects

variable [Std.TransOrd κ] [Std.LawfulEqOrd κ] {keys : List κ} {set : Std.TreeSet κ}
  (hset : Collects keys set)
include hset

theorem insert (key : κ) : Collects (keys ++ [key]) (set.insert key) := by
  intro other
  rw [Std.TreeSet.mem_insert, Std.LawfulEqCmp.compare_eq_iff_eq, hset other,
    List.mem_append, List.mem_singleton, or_comm, eq_comm]

/-- A key that comes twice counts once. -/
theorem size_eq [DecidableEq κ] : set.size = keys.toFinset.card := by
  have hnodup : set.toList.Nodup := Std.TreeSet.distinct_toList.imp fun hne hsame =>
    hne (Std.LawfulEqCmp.compare_eq_iff_eq.mpr hsame)
  rw [← Std.TreeSet.length_toList, ← List.toFinset_card_of_nodup hnodup]
  congr 1
  ext key
  simp only [List.mem_toFinset, Std.TreeSet.mem_toList, hset key]

end Collects

end LogCorpus
