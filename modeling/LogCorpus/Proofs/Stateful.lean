/-
Computations that may fail and change a state.

A failure keeps the state that was reached.  These lemmas take a computation
apart at its binds, forwards from the outcome of the first step and backwards
from the outcome of the whole, and a run over a list item by item.
-/

namespace LogCorpus

section

variable {ε σ α β : Type} {step : ExceptT ε (StateM σ) α}
  {next : α → ExceptT ε (StateM σ) β} {before after : σ}

theorem run_bind_of_ok {value : α} (hstep : step.run before = (.ok value, after)) :
    (step >>= next).run before = (next value).run after := by
  simp only [ExceptT.run, bind, ExceptT.bind, ExceptT.mk, StateT.bind] at hstep ⊢
  rw [hstep]
  rfl

theorem run_bind_of_error {fault : ε}
    (hstep : step.run before = (.error fault, after)) :
    (step >>= next).run before = (.error fault, after) := by
  simp only [ExceptT.run, bind, ExceptT.bind, ExceptT.mk, StateT.bind] at hstep ⊢
  rw [hstep]
  rfl

/-- A sequence that succeeds has a first step that succeeds. -/
theorem exists_of_run_bind_eq_ok {result : β}
    (hrun : (step >>= next).run before = (.ok result, after)) :
    ∃ value middle, step.run before = (.ok value, middle) ∧
      (next value).run middle = (.ok result, after) := by
  cases hstep : step.run before with
  | mk outcome middle =>
      cases outcome with
      | error fault =>
          rw [run_bind_of_error hstep] at hrun
          injection hrun with hfault
          cases hfault
      | ok value =>
          rw [run_bind_of_ok hstep] at hrun
          exact ⟨value, middle, rfl, hrun⟩

end

section

variable {ε σ α β : Type} {step : α → ExceptT ε (StateM σ) β} {head : α} {tail : List α}
  {before middle after : σ}

theorem run_mapM_cons_of_ok {first : β} {others : List β}
    (hfirst : (step head).run before = (.ok first, middle))
    (hothers : (tail.mapM step).run middle = (.ok others, after)) :
    ((head :: tail).mapM step).run before = (.ok (first :: others), after) := by
  rw [List.mapM_cons, run_bind_of_ok hfirst, run_bind_of_ok hothers]
  rfl

/-- Steps for all items that succeed start with one for the first item. -/
theorem exists_of_run_mapM_cons_eq_ok {results : List β}
    (hrun : ((head :: tail).mapM step).run before = (.ok results, after)) :
    ∃ first others middle, results = first :: others ∧
      (step head).run before = (.ok first, middle) ∧
      (tail.mapM step).run middle = (.ok others, after) := by
  rw [List.mapM_cons] at hrun
  obtain ⟨first, middle, hfirst, hrest⟩ := exists_of_run_bind_eq_ok hrun
  obtain ⟨others, last, hothers, hdone⟩ := exists_of_run_bind_eq_ok hrest
  injection hdone with hresults hlast
  subst hlast
  exact ⟨first, others, middle, (Except.ok.inj hresults).symm, hfirst, hothers⟩

/-- Every result is that of an item, on the state that the items before it left. -/
theorem exists_of_run_mapM_eq_ok {items : List α} {results : List β}
    (hrun : (items.mapM step).run before = (.ok results, after)) :
    ∀ result ∈ results, ∃ item ∈ items, ∃ first last,
      (step item).run first = (.ok result, last) := by
  induction items generalizing before results with
  | nil =>
      injection hrun with hnil
      rw [← Except.ok.inj hnil]
      exact fun result hresult => absurd hresult List.not_mem_nil
  | cons head tail ih =>
      obtain ⟨first, others, middle, rfl, hfirst, hothers⟩ :=
        exists_of_run_mapM_cons_eq_ok hrun
      intro result hresult
      rcases List.mem_cons.mp hresult with rfl | hmem
      · exact ⟨head, List.mem_cons_self, before, middle, hfirst⟩
      · obtain ⟨item, hitem, hfound⟩ := ih hothers result hmem
        exact ⟨item, List.mem_cons_of_mem head hitem, hfound⟩

end

section

variable {ε δ α β : Type}

/-- What holds of a sequence that succeeds, without a state. -/
theorem exists_of_bind_eq_ok {step : Except ε α}
    {next : α → Except ε β} {result : β} (hrun : step >>= next = .ok result) :
    ∃ value, step = .ok value ∧ next value = .ok result := by
  cases step with
  | error fault => cases hrun
  | ok value => exact ⟨value, rfl, hrun⟩

/-- A result that is an image. -/
theorem exists_of_map_eq_ok {step : Except ε α} {image : α → β} {result : β}
    (hrun : step.map image = .ok result) :
    ∃ value, step = .ok value ∧ image value = result := by
  cases step with
  | error fault => cases hrun
  | ok value => exact ⟨value, rfl, Except.ok.inj hrun⟩

/-- A condition that holds lets the rest go on. -/
theorem guard_eq_some {condition : Prop} [Decidable condition] (holds : condition) :
    (guard condition : Option Unit) = some () :=
  if_pos holds

/-- Another name for the fault does not matter to a result. -/
theorem eq_ok_of_mapError_eq_ok {step : Except ε α} {rename : ε → δ} {value : α}
    (hrun : step.mapError rename = .ok value) : step = .ok value := by
  cases step with
  | error fault => cases hrun
  | ok found => rw [Except.ok.inj hrun]

/-- A step that succeeds for every item of a list. -/
theorem mapM_eq_ok {step : α → Except ε β} {image : α → β} {items : List α}
    (hstep : ∀ item ∈ items, step item = .ok (image item)) :
    items.mapM step = .ok (items.map image) := by
  induction items with
  | nil => rfl
  | cons head tail ih =>
      rw [List.mapM_cons, hstep head List.mem_cons_self,
        ih fun item hitem => hstep item (List.mem_cons_of_mem head hitem)]
      rfl

/-- Readings that agree on the items of a list agree on the list. -/
theorem mapM_congr_of_mem {read? other? : α → Option β} {items : List α}
    (hitems : ∀ item ∈ items, read? item = other? item) :
    items.mapM read? = items.mapM other? := by
  induction items with
  | nil => rfl
  | cons head tail ih =>
      rw [List.mapM_cons, List.mapM_cons, hitems head List.mem_cons_self,
        ih fun item hitem => hitems item (List.mem_cons_of_mem head hitem)]

/-- A run in which every item is taken up, whatever came before it. -/
theorem foldlM_eq_ok {step : β → α → Except ε β} {next : β → α → β} {items : List α}
    (hstep : ∀ item ∈ items, ∀ state, step state item = .ok (next state item)) (first : β) :
    items.foldlM step first = .ok (items.foldl next first) := by
  induction items generalizing first with
  | nil => rfl
  | cons head tail ih =>
      rw [List.foldlM_cons, hstep head List.mem_cons_self]
      exact ih (fun item hitem => hstep item (List.mem_cons_of_mem head hitem)) _

/-- A run over a list ends with the step for its last item. -/
theorem foldlM_concat_eq_ok_iff {step : β → α → Except ε β} {front : List α} {item : α}
    {first last : β} :
    (front ++ [item]).foldlM step first = .ok last ↔
      ∃ middle, front.foldlM step first = .ok middle ∧ step middle item = .ok last := by
  constructor
  · intro hrun
    rw [List.foldlM_append] at hrun
    obtain ⟨middle, hfront, hitem⟩ := exists_of_bind_eq_ok hrun
    rw [List.foldlM_cons] at hitem
    obtain ⟨found, hstep, hdone⟩ := exists_of_bind_eq_ok hitem
    injection hdone with hdone
    exact ⟨middle, hfront, hdone ▸ hstep⟩
  · rintro ⟨middle, hfront, hstep⟩
    rw [List.foldlM_append, hfront]
    change (step middle item >>= pure) = .ok last
    rw [hstep]
    rfl

/-- Where one step goes another goes too, and so do their runs. -/
theorem foldlM_eq_ok_of_step {step other : β → α → Except ε β}
    (hstep : ∀ {state item next}, step state item = .ok next → other state item = .ok next)
    {items : List α} {first last : β} (hrun : items.foldlM step first = .ok last) :
    items.foldlM other first = .ok last := by
  induction items generalizing first with
  | nil => exact hrun
  | cons item rest ih =>
      rw [List.foldlM_cons] at hrun ⊢
      obtain ⟨next, hnext, hrest⟩ := exists_of_bind_eq_ok hrun
      rw [hstep hnext]
      exact ih hrest

/-- Items that are written one by one are read one by one. -/
theorem mapM_map_eq_some {γ : Type} {read? : β → Option γ} {write : α → β}
    {image : α → γ} {items : List α}
    (hread : ∀ item ∈ items, read? (write item) = some (image item)) :
    (items.map write).mapM read? = some (items.map image) := by
  induction items with
  | nil => rfl
  | cons head tail ih =>
      rw [List.map_cons, List.mapM_cons, hread head List.mem_cons_self,
        ih fun item hitem => hread item (List.mem_cons_of_mem head hitem)]
      rfl

/-- Everything that is read from a list is read from one of its items. -/
theorem exists_of_mapM_eq_some {read? : α → Option β} {items : List α}
    {results : List β} (hread : items.mapM read? = some results) :
    ∀ result ∈ results, ∃ item ∈ items, read? item = some result := by
  induction items generalizing results with
  | nil =>
      cases hread
      exact fun result hresult => absurd hresult List.not_mem_nil
  | cons head tail ih =>
      rw [List.mapM_cons] at hread
      obtain ⟨first, hfirst, hrest⟩ := Option.bind_eq_some_iff.mp hread
      obtain ⟨others, hothers, hsame⟩ := Option.bind_eq_some_iff.mp hrest
      cases hsame
      intro result hresult
      rcases List.mem_cons.mp hresult with rfl | hresult
      · exact ⟨head, List.mem_cons_self, hfirst⟩
      · obtain ⟨item, hitem, hitemRead⟩ := ih hothers result hresult
        exact ⟨item, List.mem_cons_of_mem head hitem, hitemRead⟩

end

end LogCorpus
