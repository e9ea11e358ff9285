/-
Lists cut, laid side by side, looked up, ordered and counted by key.
-/
import Mathlib.Algebra.BigOperators.Group.Finset.Basic
import Mathlib.Algebra.GroupWithZero.Nat
import Mathlib.Data.List.Basic
import Mathlib.Data.List.Sort
import Mathlib.Data.List.TakeWhile

namespace LogCorpus

/-- What every item of a pass keeps holds after all of them.  The induction is on the items
that are left; those in front are passed. -/
theorem foldl_of_step {σ α : Type} {step : σ → α → σ} {holds : List α → σ → Prop}
    (hstep : ∀ {front state}, holds front state → ∀ item,
      holds (front ++ [item]) (step state item))
    {front : List α} {state : σ} (hfront : holds front state) (back : List α) :
    holds (front ++ back) (back.foldl step state) := by
  induction back generalizing front state with
  | nil => rwa [List.append_nil]
  | cons item rest ih =>
      have hnext := ih (hstep hfront item)
      rwa [List.append_assoc] at hnext

/-- Cutting a block out of a list and putting it back. -/
theorem take_append_between {α : Type} (items : List α)
    {first stop : Nat} (hle : first ≤ stop) :
    items.take first ++ ((items.take stop).drop first ++ items.drop stop) =
      items := by
  have hfront : items.take first = (items.take stop).take first := by
    rw [List.take_take, Nat.min_eq_left hle]
  rw [hfront, ← List.append_assoc, List.take_append_drop,
    List.take_append_drop]

/-- Items and their images, side by side. -/
theorem countP_zip_map {α β : Type} (items : List α) (image : α → β)
    (test : α × β → Bool) :
    (items.zip (items.map image)).countP test =
      items.countP fun item => test (item, image item) := by
  induction items with
  | nil => rfl
  | cons head tail ih =>
      rw [List.map_cons, List.zip_cons_cons, List.countP_cons, List.countP_cons, ih]

/-- Items that are listed at their places are told apart by them. -/
theorem eq_of_place_eq {α : Type} {all : List α} {place : α → Nat}
    (hall : ∀ item, all[place item]? = some item) {item other : α}
    (hsame : place item = place other) : item = other := by
  have hitem := hall item
  rw [hsame, hall other] at hitem
  exact (Option.some_inj.mp hitem).symm

/-! ### Lists up to an item -/

section

variable {α : Type} [DecidableEq α]

theorem not_mem_takeWhile_ne (item : α) (items : List α) :
    item ∉ items.takeWhile (· ≠ item) := by
  intro hmem
  have hne := List.mem_takeWhile_imp hmem
  simp at hne

theorem dropWhile_ne_eq (item : α) (items : List α) :
    items.dropWhile (· ≠ item) = [] ∨ (items.dropWhile (· ≠ item)).head? = some item := by
  have hhead := List.head?_dropWhile_not (· ≠ item) items
  cases hrest : items.dropWhile (· ≠ item) with
  | nil => exact .inl rfl
  | cons first others =>
      rw [hrest] at hhead
      simp only [List.head?_cons, decide_eq_false_iff_not, not_not] at hhead
      exact .inr (by rw [hhead, List.head?_cons])

variable {item : α} {front back : List α} (hfront : item ∉ front)
  (hback : back = [] ∨ back.head? = some item)
include hfront hback

theorem takeWhile_ne_append : (front ++ back).takeWhile (· ≠ item) = front := by
  have hall : ∀ other ∈ front, decide (other ≠ item) = true :=
    fun other hother => decide_eq_true fun heq => hfront (heq ▸ hother)
  rw [List.takeWhile_append_of_pos hall]
  rcases hback with rfl | hhead
  · simp
  · obtain ⟨others, rfl⟩ := List.head?_eq_some_iff.mp hhead
    simp

theorem dropWhile_ne_append : (front ++ back).dropWhile (· ≠ item) = back := by
  have hboth := List.takeWhile_append_dropWhile (p := (· ≠ item)) (l := front ++ back)
  rw [takeWhile_ne_append hfront hback] at hboth
  exact List.append_cancel_left hboth

end

/-! ### Keys -/

/-- What is found under a key, where no key comes twice. -/
theorem lookup_eq_some_iff_mem {κ α : Type} [DecidableEq κ] {entries : List (κ × α)}
    (hkeys : (entries.map Prod.fst).Nodup) {key : κ} {value : α} :
    entries.lookup key = some value ↔ (key, value) ∈ entries := by
  induction entries with
  | nil => simp
  | cons head tail ih =>
      obtain ⟨name, first⟩ := head
      rw [List.map_cons, List.nodup_cons] at hkeys
      rw [List.lookup_cons, List.mem_cons]
      by_cases hname : key = name
      · subst hname
        have habsent : (key, value) ∉ tail := fun hmem =>
          hkeys.1 (List.mem_map.mpr ⟨_, hmem, rfl⟩)
        simp [habsent, eq_comm]
      · have hother : (key == name) = false := by simpa using hname
        rw [hother, ih hkeys.2]
        simp [hname]

/-- Lists in ascending order of a key are the same if they have the same members. -/
theorem eq_of_ascending {α κ : Type} [LT κ] [Std.Asymm (α := κ) (· < ·)] (key : α → κ)
    {items others : List α}
    (hitems : items.Pairwise fun first second => key first < key second)
    (hothers : others.Pairwise fun first second => key first < key second)
    (hmem : ∀ item, item ∈ items ↔ item ∈ others) : items = others := by
  let earlier (first second : α) : Prop := key first < key second
  have : Std.Asymm earlier :=
    ⟨fun first second => Std.Asymm.asymm (r := (· < ·)) (key first) (key second)⟩
  exact List.Pairwise.eq_of_mem_iff (r := earlier) hitems hothers hmem

/-- Items counted by key are all counted, where no key comes twice and none is
missing. -/
theorem sum_countP_eq_length {κ α : Type} [DecidableEq κ] {keys : List κ}
    (hkeys : keys.Nodup) {key : α → κ} {items : List α}
    (hitems : ∀ item ∈ items, key item ∈ keys) :
    (keys.map fun value => items.countP fun item => key item = value).sum =
      items.length := by
  have hcount (value : κ) : (items.countP fun item => key item = value) =
      (Multiset.ofList (items.map key)).count value := by
    rw [Multiset.coe_count, List.count, List.countP_map]
    rfl
  simp only [hcount]
  rw [← List.sum_toFinset _ hkeys, Multiset.sum_count_eq_card]
  · simp
  · simpa using hitems

end LogCorpus
