/-
Shuffling permutes.

Whatever words a source gives, a shuffled list has the items of the list, each as
often as before.  With a source that answers in time, the limit of the draws is never
met: the list is in the one order that draws without a limit lead to.
-/
import LogCorpus.Random.Shuffle
import Mathlib.Data.List.Perm.Basic

namespace LogCorpus

theorem swapIfInBounds_perm (items : Array α) (place other : Nat) :
    (items.swapIfInBounds place other).toList.Perm items.toList := by
  rw [Array.swapIfInBounds]
  by_cases hplace : place < items.size
  · by_cases hother : other < items.size
    · rw [dif_pos hplace, dif_pos hother]
      exact Array.perm_iff_toList_perm.mp (Array.swap_perm hplace hother)
    · rw [dif_pos hplace, dif_neg hother]
  · rw [dif_neg hplace]

/-- One exchange permutes, so all of them do. -/
theorem shuffleDown_perm (source : WordSource σ) (place : Nat) (items : Array α)
    (state : σ) :
    (shuffleDown source place items state).1.toList.Perm items.toList := by
  induction place generalizing items state with
  | zero => exact List.Perm.refl _
  | succ place ih =>
      rw [shuffleDown]
      exact (ih _ _).trans (swapIfInBounds_perm items _ _)

theorem shuffle_perm (source : WordSource σ) (items : List α) (state : σ) :
    (shuffle source items state).1.Perm items :=
  shuffleDown_perm source (items.length - 1) items.toArray state

/-! ### Draws without a limit -/

section

variable {source : WordSource σ} {bound : Nat} {state last stop : σ}

/-- What is drawn is below the bound, so an exchange never leaves the list. -/
theorem Draws.lt {number : Nat} (hbound : 0 < bound)
    (hdraws : Draws source bound state number last) : number < bound := by
  induction hdraws with
  | @accepted _ _ word hword hfair =>
      exact Nat.div_lt_of_lt_mul (Nat.mul_lt_mul_of_pos_right word.toNat_lt hbound)
  | rejected hword hunfair hrest ih => exact ih

/-- The words of the source decide what is drawn. -/
theorem Draws.unique {number other : Nat} (hdraws : Draws source bound state number last)
    (hother : Draws source bound state other stop) : number = other ∧ last = stop := by
  induction hdraws with
  | accepted hword hfair =>
      cases hother with
      | accepted hsame _ =>
          rw [hword] at hsame
          cases hsame
          exact ⟨rfl, rfl⟩
      | rejected hsame hunfair _ =>
          rw [hword] at hsame
          cases hsame
          simp [hfair] at hunfair
  | rejected hword hunfair hrest ih =>
      cases hother with
      | accepted hsame hfair =>
          rw [hword] at hsame
          cases hsame
          simp [hunfair] at hfair
      | rejected hsame _ hother =>
          rw [hword] at hsame
          cases hsame
          exact ih hother

/-- If a fair word comes before the draws run out, they are as good as unlimited. -/
theorem draws_drawBelow {draws rejected : Nat} (hrejected : rejected < draws)
    (hfair : isFair bound (source (afterWords source rejected state)).1) :
    Draws source bound state (drawBelow source bound draws state).1
      (drawBelow source bound draws state).2 := by
  induction draws generalizing rejected state with
  | zero => exact absurd hrejected (Nat.not_lt_zero _)
  | succ draws ih =>
      rw [drawBelow]
      by_cases hfirst : isFair bound (source state).1
      · simp only [if_pos hfirst]
        exact .accepted rfl hfirst
      · simp only [if_neg hfirst]
        cases rejected with
        | zero => exact absurd hfair hfirst
        | succ rejected =>
            exact .rejected rfl (Bool.eq_false_iff.mpr hfirst)
              (ih (Nat.lt_of_succ_lt_succ hrejected) hfair)

end

section

variable {source : WordSource σ}

/-- Draws without a limit leave the items in one order only. -/
theorem Shuffles.unique {place : Nat} {items after other : Array α} {state last stop : σ}
    (hshuffles : Shuffles source place items state after last)
    (hother : Shuffles source place items state other stop) :
    after = other ∧ last = stop := by
  induction hshuffles with
  | done items state =>
      cases hother
      exact ⟨rfl, rfl⟩
  | exchange hdraws hrest ih =>
      cases hother with
      | exchange hdrawn hother =>
          obtain ⟨rfl, rfl⟩ := hdraws.unique hdrawn
          exact ih hother

theorem shuffles_shuffleDown (hanswers : Answers source) {place : Nat}
    (hplace : place + 1 < UInt32.size) (items : Array α) (state : σ) :
    Shuffles source place items state (shuffleDown source place items state).1
      (shuffleDown source place items state).2 := by
  induction place generalizing items state with
  | zero => exact .done items state
  | succ place ih =>
      obtain ⟨rejected, hrejected, hfair⟩ :=
        hanswers (place + 2) (Nat.succ_pos _) hplace state
      exact .exchange (draws_drawBelow hrejected hfair) (ih (Nat.lt_of_succ_lt hplace) _ _)

/-- With a source that answers, a list of fewer than 2^32 items is shuffled as draws
without a limit shuffle it. -/
theorem shuffles_iff (hanswers : Answers source) {items : List α}
    (hlength : items.length < UInt32.size) {state last : σ} {after : Array α} :
    Shuffles source (items.length - 1) items.toArray state after last ↔
      shuffle source items state = (after.toList, last) := by
  have hplace : items.length - 1 + 1 < UInt32.size := by
    have hsize : 1 < UInt32.size := by decide
    omega
  have hshuffled := shuffles_shuffleDown hanswers hplace items.toArray state
  constructor
  · intro hshuffles
    obtain ⟨rfl, rfl⟩ := hshuffles.unique hshuffled
    rfl
  · intro hshuffle
    obtain ⟨hitems, rfl⟩ := Prod.mk.inj hshuffle
    rwa [Array.toList_inj.mp hitems] at hshuffled

end

/-- A source of zeros answers. -/
example : Answers fun state : Unit => (0, state) :=
  fun bound _ _ state => ⟨0, by decide, by simp [isFair]⟩

end LogCorpus
